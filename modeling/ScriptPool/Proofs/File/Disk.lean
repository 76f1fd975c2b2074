import ScriptPool.File.Disk
import ScriptPool.Proofs.File.Components

namespace ScriptPool.Disk

variable {d : Disk} {place target : List String} {entry : DiskEntry} {contents : ByteArray}
  {path name : String}

theorem walk?_append (front back : List String) :
    d.walk? place (front ++ back) = (d.walk? place front).bind (d.walk? · back) := by
  induction front generalizing place with
  | nil => rfl
  | cons name front ih =>
      rw [List.cons_append, walk?, walk?]
      split
      · rfl
      · split
        · exact ih
        · split
          · exact ih
          · exact ih

theorem getLast?_of_walk? {names : List String} (h : d.walk? place names = some target)
    (hlast : names.getLast? = some name) (hidle : ¬(name = "" ∨ name = ".")) (hup : name ≠ "..") :
    target.getLast? = some name := by
  obtain ⟨front, rfl⟩ := List.getLast?_eq_some_iff.mp hlast
  rw [walk?_append] at h
  obtain ⟨folder, -, hstep⟩ := Option.bind_eq_some_iff.mp h
  rw [walk?, if_neg hidle, if_neg hup] at hstep
  split at hstep
  · cases hstep
  · rw [walk?] at hstep
    rw [← Option.some.inj hstep, List.getLast?_concat]

theorem idle_or_up_iff {last : List Char} :
    (String.ofList last = "" ∨ String.ofList last = "." ∨ String.ofList last = "..") ↔
      Path.isIdle last = true ∨ last = ['.', '.'] := by
  have hofList (chars : List Char) : String.ofList last = String.ofList chars ↔ last = chars :=
    String.ofList_inj
  rw [show "" = String.ofList [] from rfl, show "." = String.ofList ['.'] from rfl,
    show ".." = String.ofList ['.', '.'] from rfl, hofList, hofList, hofList, Path.isIdle,
    Bool.or_eq_true, decide_eq_true_iff, decide_eq_true_iff, or_assoc]

theorem locate?_eq_some_iff {last : List Char}
    (hlast : (Path.names path.toList).getLast? = some last) :
    d.locate? path = some place ↔
      d.walk? [] ((Path.names path.toList).map String.ofList) = some place ∧
        (Path.isIdle last = true ∨ last = ['.', '.'] → d.isFolder place = true) := by
  rw [← idle_or_up_iff]
  simp only [locate?, List.getLast?_map, hlast, Option.map_some, Option.any_some]
  cases d.walk? [] ((Path.names path.toList).map String.ofList) with
  | none => simp
  | some found =>
      simp only [Option.some.injEq]
      split
      · next hblocked =>
          refine iff_of_false (by simp) ?_
          rintro ⟨rfl, hfolder⟩
          simp only [Bool.and_eq_true, Bool.or_eq_true, decide_eq_true_iff, Bool.not_eq_true',
            or_assoc] at hblocked
          rw [hfolder hblocked.1] at hblocked
          cases hblocked.2
      · next hfree =>
          refine ⟨?_, fun h => by rw [h.1]⟩
          rintro ⟨⟩
          exact ⟨rfl, by simpa [or_assoc] using hfree⟩

theorem getLast?_of_locate? {last : List Char} (h : d.locate? path = some place)
    (hlast : (Path.names path.toList).getLast? = some last) (hidle : Path.isIdle last = false)
    (hup : last ≠ ['.', '.']) : place.getLast? = some (String.ofList last) := by
  have hwalk := ((locate?_eq_some_iff hlast).mp h).1
  have hplain : ¬(String.ofList last = "" ∨ String.ofList last = "." ∨ String.ofList last = "..") := by
    rw [idle_or_up_iff, hidle]
    simpa using hup
  refine getLast?_of_walk? hwalk (by rw [List.getLast?_map, hlast]; rfl) ?_ ?_
  · exact fun h => hplain (h.imp id .inl)
  · exact fun h => hplain (.inr (.inr h))

theorem exists_name_of_readBytes? (h : d.readBytes? path = some contents) :
    ∃ name, (Path.names path.toList).getLast? = some name ∧ Path.isIdle name = false ∧
      name ≠ ['.', '.'] := by
  obtain ⟨front, last, hconcat⟩ :=
    (List.eq_nil_or_concat _).resolve_left (Path.names_ne_nil path.toList)
  have hlast : (Path.names path.toList).getLast? = some last := by
    rw [hconcat, List.concat_eq_append, List.getLast?_concat]
  refine ⟨last, hlast, ?_⟩
  by_contra hplain
  have hidle : Path.isIdle last = true ∨ last = ['.', '.'] := by
    by_contra hnone
    exact hplain (by simpa using hnone)
  -- such a path leads to a folder only, and a folder has no contents
  cases hplace : d.locate? path with
  | none => simp [readBytes?, hplace] at h
  | some place =>
      have hfolder : d.isFolder place = true := ((locate?_eq_some_iff hlast).mp hplace).2 hidle
      cases hentry : d.find? place with
      | none => simp [readBytes?, hplace, hentry] at h
      | some entry =>
          cases entry with
          | folder => simp [readBytes?, hplace, hentry] at h
          | file => simp [isFolder, hentry] at hfolder

theorem find?_put_of_ne (hne : place ≠ target) :
    (d.put target entry).find? place = d.find? place := by
  have hlookup : ∀ entries : List (List String × DiskEntry),
      (entries.filter fun e => e.1 != target).lookup place = entries.lookup place := by
    intro entries
    induction entries with
    | nil => rfl
    | cons e entries ih =>
        by_cases he : e.1 = target
        · have hplace : (place == e.1) = false := by simpa [he] using hne
          rw [List.filter_cons_of_neg (by simp [he]), ih, List.lookup_cons, hplace]
        · rw [List.filter_cons_of_pos (by simpa using he), List.lookup_cons, List.lookup_cons, ih]
  have hplace : (place == target) = false := by simpa using hne
  simp only [find?, put, List.lookup_cons, hplace, hlookup]

theorem isFolder_put_file (hfree : d.isFolder target = false) (place : List String) :
    (d.put target (.file contents)).isFolder place = d.isFolder place := by
  by_cases hplace : place = target
  · subst hplace
    have hne : place ≠ [] := by
      rintro rfl
      cases hfree
    rw [hfree]
    simp [isFolder, find?, put, hne]
  · rw [isFolder, isFolder, find?_put_of_ne hplace]

theorem walk?_put_file (hfree : d.isFolder target = false) (place : List String)
    (names : List String) :
    (d.put target (.file contents)).walk? place names = d.walk? place names := by
  induction names generalizing place with
  | nil => rfl
  | cons name names ih => rw [walk?, walk?, isFolder_put_file hfree, ih, ih, ih]

theorem locate?_put_file (hfree : d.isFolder target = false) (path : String) :
    (d.put target (.file contents)).locate? path = d.locate? path := by
  simp only [locate?, walk?_put_file hfree, isFolder_put_file hfree]

theorem readBytes?_of_writeBytes? {d' : Disk} {output : String}
    (h : d.writeBytes? output contents = some d') (hne : d.locate? path ≠ d.locate? output) :
    d'.readBytes? path = d.readBytes? path := by
  unfold writeBytes? at h
  cases hout : d.locate? output with
  | none => simp [hout] at h
  | some target =>
      simp only [hout] at h
      split at h
      · cases h
      · next hcheck =>
          have hfree : d.isFolder target = false := by
            simp only [Bool.or_eq_true, not_or] at hcheck
            simpa using hcheck.1
          rw [← Option.some.inj h, readBytes?, readBytes?, locate?_put_file hfree]
          cases hpath : d.locate? path with
          | none => rfl
          | some place =>
              have hplace : place ≠ target := by
                rintro rfl
                exact hne (hpath.trans hout.symm)
              rw [Option.bind_some, Option.bind_some, find?_put_of_ne hplace]

end ScriptPool.Disk
