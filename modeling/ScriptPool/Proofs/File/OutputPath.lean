import ScriptPool.Launch.Script
import ScriptPool.Proofs.File.Disk

namespace ScriptPool

theorem ScriptSettings.prefix_of_fault? {s : ScriptSettings} (h : s.fault? = none) :
    s.outputPrefix.toList ≠ [] ∧ '/' ∉ s.outputPrefix.toList := by
  unfold ScriptSettings.fault? at h
  split at h
  · cases h
  · split at h
    · cases h
    · split at h
      · cases h
      · next hbad =>
          rw [Bool.or_eq_true, not_or] at hbad
          refine ⟨by simpa using hbad.1, fun hslash => hbad.2 ?_⟩
          exact List.any_eq_true.mpr ⟨'/', hslash, rfl⟩

namespace Path

theorem IsFileName.append {before name : List Char} (hname : IsFileName name) (hne : before ≠ [])
    (hslash : '/' ∉ before) : IsFileName (before ++ name) := by
  obtain ⟨hempty, hdot⟩ := isIdle_eq_false_iff.mp hname.idle
  obtain ⟨first, before, rfl⟩ := List.exists_cons_of_ne_nil hne
  obtain ⟨second, rest, rfl⟩ := List.exists_cons_of_ne_nil hempty
  refine ⟨Component.ofName?_eq_name_iff.mpr ⟨rfl, by simp [isIdle], fun hup => ?_⟩, ?_⟩
  -- two dots would be a dot before a dot, and a dot is no file name
  · cases before with
    | nil => exact hdot (List.cons.inj hup).2
    | cons => simp at hup
  · rw [List.mem_append, not_or]
    exact ⟨hslash, hname.slash⟩

/-- The path of the folder that a path with a file name lies in. -/
def parent (path : String) : String :=
  String.ofList (parentChars path.toList)

theorem fileName?_eq_some_iff {path name : String} :
    fileName? path = some name ↔ fileNameChars? path.toList = some name.toList := by
  rw [fileName?, Option.map_eq_some_iff]
  constructor
  · rintro ⟨chars, hchars, rfl⟩
    rwa [String.toList_ofList]
  · exact fun h => ⟨name.toList, h, String.ofList_toList⟩

theorem fileName?_iff_getLast? {path name : String} :
    fileName? path = some name ↔
      (components path.toList).getLast? = some (.name name.toList) :=
  fileName?_eq_some_iff.trans fileNameChars?_eq_some_iff

theorem components_parent {path name : String} (hname : fileName? path = some name) :
    components (parent path).toList = (components path.toList).dropLast := by
  rw [parent, String.toList_ofList, components_parentChars (fileName?_eq_some_iff.mp hname)]

end Path

section

variable {s : ScriptSettings} {path path' name name' : String} (hs : s.fault? = none)
  (hname : Path.fileName? path = some name) (hname' : Path.fileName? path' = some name')

include hname in
theorem toList_outputPath :
    (s.outputPath path).toList =
      Path.withFileNameChars path.toList (s.outputPrefix.toList ++ name.toList) := by
  rw [ScriptSettings.outputPath, hname, Option.getD_some, Path.withFileName, String.toList_ofList,
    String.toList_append]

include hs hname

theorem isFileName_output : Path.IsFileName (s.outputPrefix.toList ++ name.toList) := by
  obtain ⟨hne, hslash⟩ := ScriptSettings.prefix_of_fault? hs
  obtain ⟨hfile, -⟩ := Path.exists_body_of_fileNameChars? (Path.fileName?_eq_some_iff.mp hname)
  exact hfile.append hne hslash

theorem fileName?_outputPath :
    Path.fileName? (s.outputPath path) = some (s.outputPrefix ++ name) := by
  rw [Path.fileName?_eq_some_iff, toList_outputPath hname, String.toList_append]
  exact Path.fileNameChars?_withFileNameChars (Path.fileName?_eq_some_iff.mp hname)
    (isFileName_output hs hname)

theorem parent_outputPath : Path.parent (s.outputPath path) = Path.parent path := by
  rw [Path.parent, Path.parent, toList_outputPath hname,
    Path.parentChars_withFileNameChars (Path.fileName?_eq_some_iff.mp hname)
      (isFileName_output hs hname)]

theorem components_outputPath :
    Path.components (s.outputPath path).toList =
      (Path.components path.toList).dropLast ++
        [.name (s.outputPrefix.toList ++ name.toList)] := by
  have hchars := Path.fileName?_eq_some_iff.mp hname
  rw [toList_outputPath hname, Path.components_withFileNameChars hchars (isFileName_output hs hname),
    Path.components_parentChars hchars]

theorem components_outputPath_ne :
    Path.components (s.outputPath path).toList ≠ Path.components path.toList := by
  intro hsame
  have hlast := Path.fileName?_iff_getLast?.mp hname
  rw [← hsame, components_outputPath hs hname, List.getLast?_concat, Option.some_inj,
    Path.Component.name.injEq] at hlast
  exact (ScriptSettings.prefix_of_fault? hs).1 (by simpa using hlast)

include hname'

theorem components_outputPath_inj :
    Path.components (s.outputPath path).toList = Path.components (s.outputPath path').toList ↔
      Path.components path.toList = Path.components path'.toList := by
  obtain ⟨folder, hfolder⟩ :=
    List.getLast?_eq_some_iff.mp (Path.fileName?_iff_getLast?.mp hname)
  obtain ⟨folder', hfolder'⟩ :=
    List.getLast?_eq_some_iff.mp (Path.fileName?_iff_getLast?.mp hname')
  rw [components_outputPath hs hname, components_outputPath hs hname', hfolder, hfolder',
    List.dropLast_concat, List.dropLast_concat]
  constructor
  · intro h
    obtain ⟨rfl, hlast⟩ := List.append_inj' h rfl
    simpa using hlast
  · intro h
    obtain ⟨rfl, hlast⟩ := List.append_inj' h rfl
    simpa using hlast

theorem components_outputPath_ne_of_name_ne (hne : name ≠ name') :
    Path.components (s.outputPath path).toList ≠ Path.components (s.outputPath path').toList := by
  intro h
  have hsame := (components_outputPath_inj hs hname hname').mp h
  have hlast := Path.fileName?_iff_getLast?.mp hname
  rw [hsame, Path.fileName?_iff_getLast?.mp hname', Option.some_inj, Path.Component.name.injEq]
    at hlast
  exact hne (String.toList_injective hlast).symm

end

theorem locate?_outputPath_ne {s : ScriptSettings} {disk : Disk} {path : String}
    {contents : ByteArray} {place : List String} (hs : s.fault? = none)
    (hread : disk.readBytes? path = some contents)
    (hplace : disk.locate? (s.outputPath path) = some place) :
    disk.locate? path ≠ some place := by
  intro hsame
  obtain ⟨chars, hlast, hidle, hup⟩ := Disk.exists_name_of_readBytes? hread
  have hchars : Path.fileNameChars? path.toList = some chars :=
    Path.fileNameChars?_of_getLast?_names hlast hidle hup
  have hname : Path.fileName? path = some (String.ofList chars) := by
    rw [Path.fileName?_eq_some_iff, String.toList_ofList, hchars]
  have hfile := isFileName_output hs hname
  have hlastOut : (Path.names (s.outputPath path).toList).getLast? =
      some (s.outputPrefix.toList ++ (String.ofList chars).toList) := by
    rw [toList_outputPath hname]
    exact Path.getLast?_names_withFileNameChars hchars hfile
  have hplaceLast := Disk.getLast?_of_locate? hplace hlastOut hfile.idle hfile.up
  rw [Disk.getLast?_of_locate? hsame hlast hidle hup, Option.some_inj, String.ofList_inj,
    String.toList_ofList] at hplaceLast
  exact (ScriptSettings.prefix_of_fault? hs).1 (by simpa using hplaceLast)

theorem readBytes?_instrumentFile {s : ScriptSettings} (hs : s.fault? = none) (disk : Disk)
    (path : String) :
    (instrumentFile s disk path).disk.readBytes? path = disk.readBytes? path := by
  cases hread : disk.read? path with
  | none => simp only [instrumentFile, hread]
  | some source =>
      cases hscript : Instrumented.ofSource s source with
      | error e => simp only [instrumentFile, hread, hscript]
      | ok script =>
          cases hwrite : disk.write? (s.outputPath path) script.toSource with
          | none => simp only [instrumentFile, hread, hscript, hwrite]
          | some disk' =>
              obtain ⟨contents, hbytes, -⟩ := Option.bind_eq_some_iff.mp hread
              simp only [instrumentFile, hread, hscript, hwrite]
              refine Disk.readBytes?_of_writeBytes? hwrite ?_
              cases hplace : disk.locate? (s.outputPath path) with
              | none => simp [Disk.write?, Disk.writeBytes?, hplace] at hwrite
              | some place => exact locate?_outputPath_ne hs hbytes hplace

/-- An instrumented script is written beside its script and never over it.

With a prefix that the settings allow, and for every path with a file name, which is to say with a name
as its last component, the path that is written has the same parent and the prefix before the file name.
It is another path than that of the script, also where the texts of two paths differ only by idle names.
Scripts with different names are written to different paths, and scripts at different paths too. Whatever
is on the disk and whatever the path, instrumenting leaves the contents of the script as they were. -/
theorem output_beside_script {s : ScriptSettings} (hs : s.fault? = none) :
    (∀ path name : String, Path.fileName? path = some name ↔
      (Path.components path.toList).getLast? = some (.name name.toList)) ∧
    (∀ path name : String, Path.fileName? path = some name →
      Path.fileName? (s.outputPath path) = some (s.outputPrefix ++ name) ∧
      Path.parent (s.outputPath path) = Path.parent path ∧
      Path.components (Path.parent path).toList = (Path.components path.toList).dropLast ∧
      Path.components (s.outputPath path).toList ≠ Path.components path.toList) ∧
    (∀ path path' name name' : String,
      Path.fileName? path = some name → Path.fileName? path' = some name' →
      (name ≠ name' → Path.components (s.outputPath path).toList ≠
        Path.components (s.outputPath path').toList) ∧
      (Path.components (s.outputPath path).toList = Path.components (s.outputPath path').toList ↔
        Path.components path.toList = Path.components path'.toList)) ∧
    ∀ (disk : Disk) (path : String),
      (instrumentFile s disk path).disk.readBytes? path = disk.readBytes? path := by
  refine ⟨fun _ _ => Path.fileName?_iff_getLast?, fun path name hname => ?_,
    fun path path' name name' hname hname' => ?_, readBytes?_instrumentFile hs⟩
  · exact ⟨fileName?_outputPath hs hname, parent_outputPath hs hname, Path.components_parent hname,
      components_outputPath_ne hs hname⟩
  · exact ⟨components_outputPath_ne_of_name_ne hs hname hname',
      components_outputPath_inj hs hname hname'⟩

/-- A path from the current folder, with a double slash and an idle end. -/
theorem output_beside_script_idle :
    ScriptSettings.standard.fault? = none ∧
    Path.fileName? "./a//run.lua/." = some "run.lua" ∧
    Path.fileName? (ScriptSettings.standard.outputPath "./a//run.lua/.") =
      some ("__parallel_" ++ "run.lua") ∧
    Path.parent (ScriptSettings.standard.outputPath "./a//run.lua/.") = "./a" ∧
    Path.components (ScriptSettings.standard.outputPath "./a//run.lua/.").toList ≠
      Path.components "./a//run.lua/.".toList ∧
    Path.components (ScriptSettings.standard.outputPath "./a//run.lua/.").toList ≠
      Path.components (ScriptSettings.standard.outputPath "./a/walk.lua").toList := by
  have hstandard : ScriptSettings.standard.fault? = none := rfl
  have hname : Path.fileName? "./a//run.lua/." = some "run.lua" := by decide +kernel
  have hname' : Path.fileName? "./a/walk.lua" = some "walk.lua" := by decide +kernel
  obtain ⟨-, hbeside, hpair, -⟩ := output_beside_script hstandard
  obtain ⟨hout, hparent, -, hne⟩ := hbeside _ _ hname
  have hfolder : Path.parent "./a//run.lua/." = "./a" := by decide +kernel
  exact ⟨hstandard, hname, hout, hparent.trans hfolder, hne,
    (hpair _ _ _ _ hname hname').1 (by decide)⟩

end ScriptPool
