import Mathlib.Data.List.DropRight
import ScriptPool.File.Path

namespace ScriptPool.Path

/-- What a path starts with. -/
inductive Start where
  /-- A slash. -/
  | top
  /-- The current folder, by a dot. -/
  | here
  | bare
  deriving DecidableEq

def Start.chars : Start → List Char
  | .top => ['/']
  | .here => ['.']
  | .bare => []

def start : List Char → Start
  | '/' :: _ => .top
  | ['.'] => .here
  | '.' :: '/' :: _ => .here
  | _ => .bare

/-- The names of a path after its start. -/
def parts (path : List Char) : List (List Char) :=
  names (path.drop (startLength path))

variable {path text name : List Char} {ps : List (List Char)} {s : Start}

theorem names_eq_splitOn (text : List Char) : names text = text.splitOn '/' := by
  induction text with
  | nil => rfl
  | cons c text ih =>
      rw [names, ih, List.splitOn_cons_eq_if_modifyHead]
      cases hsplit : text.splitOn '/' with
      | nil => exact absurd hsplit (List.splitOn_ne_nil _ _)
      | cons first others => simp

theorem names_ne_nil (text : List Char) : names text ≠ [] := by
  rw [names_eq_splitOn]
  exact List.splitOn_ne_nil _ _

theorem joinNames_names (text : List Char) : joinNames (names text) = text := by
  rw [names_eq_splitOn]
  exact List.intercalate_splitOn '/'

theorem names_joinNames (hslash : ∀ part ∈ ps, '/' ∉ part) (hne : ps ≠ []) :
    names (joinNames ps) = ps := by
  rw [names_eq_splitOn]
  exact List.splitOn_intercalate '/' hslash hne

theorem slash_not_mem_of_mem_names (h : name ∈ names text) : '/' ∉ name := by
  induction text generalizing name with
  | nil =>
      rw [List.mem_singleton.mp h]
      exact List.not_mem_nil
  | cons c text ih =>
      rw [names] at h
      split at h
      · rcases List.mem_cons.mp h with rfl | h
        · exact List.not_mem_nil
        · exact ih h
      · next hc =>
          split at h
          · next hnil => exact absurd hnil (names_ne_nil text)
          · next first others hsplit =>
              rcases List.mem_cons.mp h with rfl | h
              · have hfirst : '/' ∉ first := ih (hsplit ▸ List.mem_cons_self)
                simpa [Ne.symm hc] using hfirst
              · exact ih (hsplit ▸ List.mem_cons_of_mem _ h)

theorem joinNames_cons (first : List Char) (hne : ps ≠ []) :
    joinNames (first :: ps) = first ++ '/' :: joinNames ps := by
  rw [joinNames, List.intercalate_cons_of_ne_nil hne, List.append_assoc]
  rfl

theorem joinNames_cons_cons (c : Char) (first : List Char) (ps : List (List Char)) :
    joinNames ((c :: first) :: ps) = c :: joinNames (first :: ps) := by
  by_cases hps : ps = []
  · simp [hps, joinNames]
  · rw [joinNames_cons _ hps, joinNames_cons _ hps, List.cons_append]

theorem joinNames_append (hne : ps ≠ []) (last : List Char) :
    joinNames (ps ++ [last]) = joinNames ps ++ '/' :: last := by
  induction ps with
  | nil => exact absurd rfl hne
  | cons first ps ih =>
      rw [List.cons_append, joinNames_cons first (by simp)]
      by_cases hps : ps = []
      · subst hps
        simp [joinNames]
      · rw [ih hps, joinNames_cons first hps, List.append_assoc, List.cons_append]

theorem startLength_eq (path : List Char) : startLength path = (start path).chars.length := by
  unfold startLength
  split
  · rfl
  · rfl
  · rfl
  · next htop hdot hhere =>
      rw [start.eq_4 path htop hdot hhere]
      rfl

theorem take_startLength (path : List Char) : path.take (startLength path) = (start path).chars := by
  rw [startLength_eq]
  unfold start
  split
  · rfl
  · rfl
  · rfl
  · rfl

theorem start_append_parts (path : List Char) :
    (start path).chars ++ joinNames (parts path) = path := by
  rw [parts, joinNames_names, ← take_startLength, List.take_append_drop]

theorem start_joinNames (first : List Char) (hfirst : '/' ∉ first) :
    start (joinNames (first :: ps)) =
      if first = [] ∧ ps ≠ [] then .top else if first = ['.'] then .here else .bare := by
  by_cases hps : ps = []
  · subst hps
    rw [joinNames, List.intercalate_singleton, if_neg (fun h => h.2 rfl)]
    unfold start
    split
    · exact absurd List.mem_cons_self hfirst
    · rfl
    · simp at hfirst
    · next hdot _ => exact (if_neg hdot).symm
  · rw [joinNames_cons first hps]
    unfold start
    cases first with
    | nil => simp [hps]
    | cons c first =>
        cases first with
        | nil =>
            split
            · next heq =>
                obtain ⟨rfl, -⟩ := List.cons.inj heq
                exact absurd List.mem_cons_self hfirst
            · next heq => cases heq
            · next heq =>
                obtain ⟨rfl, -⟩ := List.cons.inj heq
                rfl
            · next hhere =>
                have hc : c ≠ '.' := by
                  rintro rfl
                  exact hhere _ rfl
                simp [hc]
        | cons d first =>
            split
            · next heq =>
                obtain ⟨rfl, -⟩ := List.cons.inj heq
                exact absurd List.mem_cons_self hfirst
            · next heq => cases heq
            · next heq =>
                obtain ⟨-, hrest⟩ := List.cons.inj heq
                obtain ⟨rfl, -⟩ := List.cons.inj hrest
                simp at hfirst
            · simp

/-- Which names can stand behind a start. -/
def Start.Fits : Start → List (List Char) → Prop
  | .top, _ => True
  | .here, ps => ps.head? = some []
  | .bare, ps => ps.head? ≠ some ['.'] ∧ (ps.head? = some [] → ps = [[]])

theorem fits_parts (path : List Char) : (start path).Fits (parts path) := by
  cases hstart : start path with
  | top => trivial
  | here =>
      rw [parts, startLength_eq, hstart]
      unfold start at hstart
      split at hstart
      · cases hstart
      · rfl
      · rfl
      · cases hstart
  | bare =>
      have hparts : parts path = names path := by rw [parts, startLength_eq, hstart]; rfl
      rw [hparts]
      cases hnames : names path with
      | nil => exact absurd hnames (names_ne_nil path)
      | cons first ps =>
          have hfirst : '/' ∉ first :=
            slash_not_mem_of_mem_names (hnames ▸ List.mem_cons_self)
          rw [← joinNames_names path, hnames, start_joinNames first hfirst] at hstart
          split at hstart
          · cases hstart
          · next htop =>
              split at hstart
              · cases hstart
              · next hhere =>
                  refine ⟨by simpa using hhere, fun hnil => ?_⟩
                  have hnil : first = [] := by simpa using hnil
                  have hps : ps = [] := by
                    by_contra hps
                    exact htop ⟨hnil, hps⟩
                  rw [hnil, hps]

theorem start_of_fits (h : s.Fits ps) (hslash : ∀ part ∈ ps, '/' ∉ part) (hne : ps ≠ []) :
    start (s.chars ++ joinNames ps) = s := by
  obtain ⟨first, others, rfl⟩ := List.exists_cons_of_ne_nil hne
  have hfirst : '/' ∉ first := hslash first List.mem_cons_self
  cases s with
  | top => rfl
  | here =>
      have hnil : first = [] := by simpa [Start.Fits] using h
      subst hnil
      by_cases hothers : others = []
      · subst hothers
        rfl
      · rw [joinNames_cons [] hothers]
        rfl
  | bare =>
      obtain ⟨hhere, hnil⟩ := h
      rw [Start.chars, List.nil_append, start_joinNames first hfirst,
        if_neg (fun htop => htop.2 (by simpa [htop.1] using hnil (by rw [htop.1]; rfl))),
        if_neg (fun hdot => hhere (by rw [hdot]; rfl))]

theorem Start.Fits.of_initial {qs : List (List Char)} (h : s.Fits qs) (hinitial : ps <+: qs)
    (hne : ps ≠ []) : s.Fits ps := by
  obtain ⟨first, others, rfl⟩ := List.exists_cons_of_ne_nil hne
  obtain ⟨rest, rfl⟩ := hinitial
  cases s with
  | top => trivial
  | here => exact h
  | bare =>
      refine ⟨h.1, fun hnil => ?_⟩
      have honly : first :: (others ++ rest) = [[]] := h.2 hnil
      obtain ⟨rfl, hothers⟩ := List.cons.inj honly
      rw [(List.append_eq_nil_iff.mp hothers).1]

theorem Start.Fits.append (h : s.Fits ps) (hne : ps ≠ []) (hnil : ps ≠ [[]])
    (qs : List (List Char)) : s.Fits (ps ++ qs) := by
  obtain ⟨first, others, rfl⟩ := List.exists_cons_of_ne_nil hne
  cases s with
  | top => trivial
  | here => exact h
  | bare => exact ⟨h.1, fun hfirst => absurd (h.2 hfirst) hnil⟩

theorem parts_of_fits (h : s.Fits ps) (hslash : ∀ part ∈ ps, '/' ∉ part) (hne : ps ≠ []) :
    parts (s.chars ++ joinNames ps) = ps := by
  rw [parts, startLength_eq, start_of_fits h hslash hne, List.drop_left, names_joinNames hslash hne]

/-- A component of a path. -/
inductive Component where
  | root
  /-- The current folder, at the start of a path only. -/
  | here
  /-- One folder up. -/
  | up
  | name (chars : List Char)
  deriving DecidableEq

def Start.components : Start → List Component
  | .top => [.root]
  | .here => [.here]
  | .bare => []

/-- The component that a name between slashes is; an idle name is none. -/
def Component.ofName? (name : List Char) : Option Component :=
  if isIdle name then none
  else if name = ['.', '.'] then some .up
  else some (.name name)

/-- The components of a path. -/
def components (path : List Char) : List Component :=
  (start path).components ++ (parts path).filterMap Component.ofName?

/-- A name that a file can have. -/
structure IsFileName (name : List Char) : Prop where
  ofName : Component.ofName? name = some (.name name)
  slash : '/' ∉ name

theorem Component.ofName?_eq_name_iff {chars : List Char} :
    Component.ofName? name = some (.name chars) ↔
      name = chars ∧ isIdle name = false ∧ name ≠ ['.', '.'] := by
  unfold Component.ofName?
  split
  · next hidle => simp [hidle]
  · next hidle =>
      split
      · next hup => simp [hup]
      · next hup => simp [hidle, hup]

theorem IsFileName.idle (h : IsFileName name) : isIdle name = false :=
  (Component.ofName?_eq_name_iff.mp h.ofName).2.1

theorem IsFileName.up (h : IsFileName name) : name ≠ ['.', '.'] :=
  (Component.ofName?_eq_name_iff.mp h.ofName).2.2

theorem isIdle_eq_false_iff : isIdle name = false ↔ name ≠ [] ∧ name ≠ ['.'] := by
  rw [isIdle, Bool.or_eq_false_iff, decide_eq_false_iff_not, decide_eq_false_iff_not]

theorem trimIdle_eq_rdropWhile (ps : List (List Char)) : trimIdle ps = ps.rdropWhile isIdle :=
  rfl

theorem trimIdle_initial (ps : List (List Char)) : trimIdle ps <+: ps :=
  List.rdropWhile_prefix isIdle ps

theorem trimIdle_trimIdle (ps : List (List Char)) : trimIdle (trimIdle ps) = trimIdle ps :=
  List.rdropWhile_idempotent isIdle ps

theorem trimIdle_concat (front : List (List Char)) (h : isIdle name = false) :
    trimIdle (front ++ [name]) = front ++ [name] := by
  rw [trimIdle_eq_rdropWhile, List.rdropWhile_concat_neg _ _ _ (by simp [h])]

theorem trimIdle_cases (ps : List (List Char)) :
    trimIdle ps = [] ∨ ∃ front last, trimIdle ps = front ++ [last] ∧ isIdle last = false := by
  rcases List.eq_nil_or_concat (trimIdle ps) with hnil | ⟨front, last, hconcat⟩
  · exact .inl hnil
  · rw [List.concat_eq_append] at hconcat
    refine .inr ⟨front, last, hconcat, ?_⟩
    have hne : ps.rdropWhile isIdle ≠ [] := by
      rw [← trimIdle_eq_rdropWhile, hconcat]
      simp
    simpa [← trimIdle_eq_rdropWhile, hconcat] using List.rdropWhile_last_not isIdle ps hne

theorem filterMap_trimIdle (ps : List (List Char)) :
    (trimIdle ps).filterMap Component.ofName? = ps.filterMap Component.ofName? := by
  induction ps using List.reverseRecOn with
  | nil => rfl
  | append_singleton ps last ih =>
      by_cases hlast : isIdle last = true
      · rw [trimIdle_eq_rdropWhile, List.rdropWhile_concat_pos _ _ _ hlast,
          ← trimIdle_eq_rdropWhile, ih, List.filterMap_append]
        simp [Component.ofName?, hlast]
      · rw [trimIdle_concat ps (by simpa using hlast)]

theorem components_eq (path : List Char) :
    components path = (start path).components ++ (body path).filterMap Component.ofName? := by
  rw [components, body, filterMap_trimIdle]
  rfl

theorem fileNameChars?_eq_some_iff :
    fileNameChars? path = some name ↔ (components path).getLast? = some (.name name) := by
  rw [components_eq, fileNameChars?]
  rcases trimIdle_cases (parts path) with hnil | ⟨front, last, hbody, hlast⟩
  · have hbody : body path = [] := hnil
    rw [hbody]
    cases start path with
    | top | here | bare => simp [Start.components]
  · have hbody : body path = front ++ [last] := hbody
    rw [hbody, List.filterMap_append, ← List.append_assoc]
    by_cases hup : last = ['.', '.']
    · have hofName : Component.ofName? last = some .up := by
        rw [Component.ofName?, hlast, if_neg Bool.false_ne_true, if_pos hup]
      rw [List.filterMap_cons_some hofName, List.filterMap_nil, List.getLast?_concat,
        List.getLast?_concat]
      have hdropped : (some last).filter (· ≠ ['.', '.']) = none := by rw [hup]; rfl
      rw [hdropped]
      simp
    · have hofName : Component.ofName? last = some (.name last) :=
        Component.ofName?_eq_name_iff.mpr ⟨rfl, hlast, hup⟩
      rw [List.filterMap_cons_some hofName, List.filterMap_nil, List.getLast?_concat,
        List.getLast?_concat]
      have hkept : (some last).filter (· ≠ ['.', '.']) = some last :=
        Option.filter_eq_some_iff.mpr ⟨rfl, by simpa using hup⟩
      rw [hkept, Option.some_inj, Option.some_inj, Component.name.injEq]

theorem exists_body_of_fileNameChars? (h : fileNameChars? path = some name) :
    IsFileName name ∧ ∃ front, body path = front ++ [name] := by
  obtain ⟨hlast, hup⟩ := Option.filter_eq_some_iff.mp h
  obtain ⟨front, hbody⟩ := List.getLast?_eq_some_iff.mp hlast
  have hidle : isIdle name = false := by
    rcases trimIdle_cases (parts path) with hnil | ⟨front', last, hconcat, hidle⟩
    · have hnil : body path = [] := hnil
      simp [hnil] at hbody
    · have hconcat : body path = front' ++ [last] := hconcat
      obtain ⟨-, hsame⟩ := List.append_inj' (hconcat.symm.trans hbody) rfl
      rwa [List.singleton_inj.mp hsame] at hidle
  have hmem : name ∈ parts path :=
    (trimIdle_initial (parts path)).subset (List.mem_of_getLast? hlast)
  have hname : Component.ofName? name = some (.name name) :=
    Component.ofName?_eq_name_iff.mpr ⟨rfl, hidle, by simpa using hup⟩
  exact ⟨⟨hname, slash_not_mem_of_mem_names hmem⟩, front, hbody⟩

/-- The names of the folder that a path with a file name lies in. -/
def folderParts (path : List Char) : List (List Char) :=
  trimIdle (body path).dropLast

theorem parentChars_eq (path : List Char) :
    parentChars path = (start path).chars ++ joinNames (folderParts path) := by
  rw [parentChars, take_startLength]
  rfl

theorem folderParts_initial (path : List Char) : folderParts path <+: parts path :=
  (trimIdle_initial _).trans ((List.dropLast_prefix _).trans (trimIdle_initial _))

/-- The names before another file name in the same folder. Behind the dot of the current folder a slash
is needed. -/
def leading (path : List Char) : List (List Char) :=
  if start path = .here ∧ folderParts path = [] then [[]] else folderParts path

theorem trimIdle_leading (path : List Char) : trimIdle (leading path) = folderParts path := by
  unfold leading
  split
  · next h => rw [h.2]; rfl
  · exact trimIdle_trimIdle _

theorem slash_not_mem_of_mem_leading (h : name ∈ leading path) : '/' ∉ name := by
  unfold leading at h
  split at h
  · rw [List.mem_singleton.mp h]
    exact List.not_mem_nil
  · exact slash_not_mem_of_mem_names ((folderParts_initial path).subset h)

theorem slash_not_mem_of_mem_leading_concat (hname : IsFileName name) :
    ∀ part ∈ leading path ++ [name], '/' ∉ part := by
  intro part hpart
  rcases List.mem_append.mp hpart with hpart | hpart
  · exact slash_not_mem_of_mem_leading hpart
  · rw [List.mem_singleton.mp hpart]
    exact hname.slash

theorem folderParts_ne (path : List Char) : folderParts path ≠ [[]] := by
  intro h
  have htrim : trimIdle (folderParts path) = folderParts path := trimIdle_trimIdle _
  rw [h] at htrim
  exact absurd htrim (by decide)

theorem fits_folderParts (hne : folderParts path ≠ []) : (start path).Fits (folderParts path) :=
  (fits_parts path).of_initial (folderParts_initial path) hne

theorem fits_leading (path : List Char) (hname : IsFileName name) :
    (start path).Fits (leading path ++ [name]) := by
  by_cases hfolder : folderParts path = []
  · obtain ⟨hempty, hdot⟩ := isIdle_eq_false_iff.mp hname.idle
    rw [leading, hfolder]
    cases start path with
    | top => trivial
    | here => rfl
    | bare => simp [Start.Fits, hempty, hdot]
  · rw [leading, if_neg (fun h => hfolder h.2)]
    exact (fits_folderParts hfolder).append hfolder (folderParts_ne path) _

theorem components_parentChars (hname : fileNameChars? path = some name) :
    components (parentChars path) = (components path).dropLast := by
  obtain ⟨hfile, front, hbody⟩ := exists_body_of_fileNameChars? hname
  have hfolder : folderParts path = trimIdle front := by
    rw [folderParts, hbody, List.dropLast_concat]
  have hpath : (components path).dropLast =
      (start path).components ++ (folderParts path).filterMap Component.ofName? := by
    rw [components_eq, hbody, List.filterMap_append, List.filterMap_cons_some hfile.ofName,
      List.filterMap_nil, ← List.append_assoc, List.dropLast_concat, hfolder, filterMap_trimIdle]
  rw [hpath, parentChars_eq]
  by_cases hne : folderParts path = []
  · rw [hne]
    cases start path with
    | top | here | bare => rfl
  · have hslash : ∀ part ∈ folderParts path, '/' ∉ part := fun part hpart =>
      slash_not_mem_of_mem_names ((folderParts_initial path).subset hpart)
    rw [components, start_of_fits (fits_folderParts hne) hslash hne,
      parts_of_fits (fits_folderParts hne) hslash hne]

theorem components_of_fileNameChars? (hname : fileNameChars? path = some name) :
    components path = components (parentChars path) ++ [.name name] := by
  obtain ⟨others, hothers⟩ := List.getLast?_eq_some_iff.mp (fileNameChars?_eq_some_iff.mp hname)
  rw [components_parentChars hname, hothers, List.dropLast_concat]

theorem getLast?_names_iff (path : List Char) (hname : isIdle name = false) :
    (names path).getLast? = some name ↔ (parts path).getLast? = some name := by
  obtain ⟨first, others, hparts⟩ : ∃ first others, parts path = first :: others :=
    List.exists_cons_of_ne_nil (names_ne_nil _)
  have hpath := start_append_parts path
  have hslash : ∀ part ∈ parts path, '/' ∉ part := fun _ => slash_not_mem_of_mem_names
  have hfits := fits_parts path
  rw [hparts] at hpath hslash hfits ⊢
  cases hstart : start path with
  | top =>
      have hnames : names path = [] :: first :: others := by
        rw [← hpath, hstart]
        exact congrArg ([] :: ·) (names_joinNames hslash (by simp))
      rw [hnames, List.getLast?_cons_cons]
  | here =>
      have hfirst : first = [] := by simpa [hstart, Start.Fits] using hfits
      have hnames : names path = ['.'] :: others := by
        rw [← hpath, hstart, hfirst]
        refine (congrArg names (joinNames_cons_cons '.' [] others).symm).trans
          (names_joinNames ?_ (by simp))
        simpa using fun part hpart => hslash part (List.mem_cons_of_mem _ hpart)
      rw [hnames, hfirst]
      cases others with
      | nil =>
          obtain ⟨hempty, hdot⟩ := isIdle_eq_false_iff.mp hname
          simp [Ne.symm hempty, Ne.symm hdot]
      | cons second others => rw [List.getLast?_cons_cons, List.getLast?_cons_cons]
  | bare =>
      rw [hstart, Start.chars, List.nil_append] at hpath
      rw [← hpath, names_joinNames hslash (by simp)]

theorem fileNameChars?_of_getLast?_names (h : (names path).getLast? = some name)
    (hidle : isIdle name = false) (hup : name ≠ ['.', '.']) : fileNameChars? path = some name := by
  obtain ⟨front, hfront⟩ := List.getLast?_eq_some_iff.mp ((getLast?_names_iff path hidle).mp h)
  have hbody : body path = front ++ [name] := by
    rw [← trimIdle_concat front hidle, ← hfront]
    rfl
  rw [fileNameChars?, hbody, List.getLast?_concat]
  exact Option.filter_eq_some_iff.mpr ⟨rfl, by simpa using hup⟩

theorem appendChars_concat {last : List Char} (text : List Char) (hlast : isIdle last = false)
    (hslash : '/' ∉ last) (hname : '/' ∉ name) :
    appendChars (text ++ last) name = text ++ last ++ '/' :: name := by
  have hhead : name.head? ≠ some '/' := fun h => hname (List.mem_of_head? h)
  have hne : last ≠ [] := by
    rintro rfl
    cases hlast
  have hend : (text ++ last).getLast? ≠ some '/' := by
    rw [List.getLast?_append_of_ne_nil text hne]
    exact fun h => hslash (List.mem_of_getLast? h)
  have hnotEnd : ¬((text ++ last).isEmpty || decide ((text ++ last).getLast? = some '/')) = true := by
    rw [decide_eq_false hend]
    simp [hne]
  rw [appendChars, if_neg hhead, if_neg hnotEnd]

theorem exists_joinNames_concat (front : List (List Char)) (last : List Char) :
    ∃ text, joinNames (front ++ [last]) = text ++ last := by
  by_cases hfront : front = []
  · exact ⟨[], by simp [hfront, joinNames]⟩
  · exact ⟨joinNames front ++ ['/'], by rw [joinNames_append hfront, List.append_assoc]; rfl⟩

theorem withFileNameChars_eq {old : List Char} (hold : fileNameChars? path = some old)
    (hname : '/' ∉ name) :
    withFileNameChars path name = (start path).chars ++ joinNames (leading path ++ [name]) := by
  have hhead : name.head? ≠ some '/' := fun h => hname (List.mem_of_head? h)
  rw [withFileNameChars, hold, Option.isSome_some, if_pos rfl, parentChars_eq]
  rcases trimIdle_cases (body path).dropLast with hnil | ⟨front, last, hconcat, hlast⟩
  · have hfolder : folderParts path = [] := hnil
    rw [leading, hfolder, appendChars, if_neg hhead]
    cases start path with
    | top | here | bare => simp [Start.chars, joinNames]
  · have hfolder : folderParts path = front ++ [last] := hconcat
    have hslash : '/' ∉ last :=
      slash_not_mem_of_mem_names ((folderParts_initial path).subset (by simp [hfolder]))
    obtain ⟨text, htext⟩ := exists_joinNames_concat front last
    have hne : folderParts path ≠ [] := by simp [hfolder]
    rw [leading, if_neg (fun h => hne h.2), joinNames_append hne, hfolder, htext,
      ← List.append_assoc, appendChars_concat _ hlast hslash hname]
    simp only [List.append_assoc]

section

variable {old : List Char} (hold : fileNameChars? path = some old) (hname : IsFileName name)

include hold hname

theorem start_withFileNameChars : start (withFileNameChars path name) = start path := by
  rw [withFileNameChars_eq hold hname.slash]
  exact start_of_fits (fits_leading path hname) (slash_not_mem_of_mem_leading_concat hname)
    (by simp)

theorem parts_withFileNameChars : parts (withFileNameChars path name) = leading path ++ [name] := by
  rw [withFileNameChars_eq hold hname.slash]
  exact parts_of_fits (fits_leading path hname) (slash_not_mem_of_mem_leading_concat hname)
    (by simp)

theorem body_withFileNameChars : body (withFileNameChars path name) = leading path ++ [name] := by
  rw [body]
  change trimIdle (parts _) = _
  rw [parts_withFileNameChars hold hname, trimIdle_concat _ hname.idle]

theorem getLast?_names_withFileNameChars :
    (names (withFileNameChars path name)).getLast? = some name := by
  rw [getLast?_names_iff _ hname.idle, parts_withFileNameChars hold hname, List.getLast?_concat]

theorem fileNameChars?_withFileNameChars :
    fileNameChars? (withFileNameChars path name) = some name :=
  fileNameChars?_of_getLast?_names (getLast?_names_withFileNameChars hold hname) hname.idle hname.up

theorem parentChars_withFileNameChars :
    parentChars (withFileNameChars path name) = parentChars path := by
  rw [parentChars_eq, parentChars_eq, start_withFileNameChars hold hname, folderParts,
    body_withFileNameChars hold hname, List.dropLast_concat, trimIdle_leading]

theorem components_withFileNameChars :
    components (withFileNameChars path name) = components (parentChars path) ++ [.name name] := by
  rw [components_of_fileNameChars? (fileNameChars?_withFileNameChars hold hname),
    parentChars_withFileNameChars hold hname]

end

end ScriptPool.Path
