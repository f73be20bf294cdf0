import ScopeScript.CommandLine.Path
set_option autoImplicit false

/-!
# CommandLine: written files are found

A file that is written can be found, by every path that leads to its place, and whatever other paths
lead to is as before.  That is so because a walk only passes through directories: everything in
front of a place is a directory already, so a new file makes no new ones.

The places of a folder are told apart by their written paths, since no name has a slash in it.
-/

namespace ScopeScript

namespace Path

/-! ## Names -/

/-- A name that may stand in a path. -/
def ProperName (name : String) : Prop := name ≠ "" ∧ name ≠ "." ∧ '/' ∉ name.toList

/-- A path of proper names. -/
def Proper (path : Path) : Prop := ∀ name ∈ path.names, ProperName name

attribute [local simp] splitSlashes

theorem splitSlashes_ne_nil (text : List Char) : splitSlashes text ≠ [] := by
  cases text with
  | nil => simp
  | cons c rest =>
    rw [splitSlashes]
    repeat' split
    all_goals simp

theorem splitSlashes_cons {c : Char} (h : c ≠ '/') {text name : List Char}
    {names : List (List Char)} (split : splitSlashes text = name :: names) :
    splitSlashes (c :: text) = (c :: name) :: names := by
  simp [split, h]

theorem splitSlashes_slash (text : List Char) :
    splitSlashes ('/' :: text) = [] :: splitSlashes text := by
  obtain ⟨name, names, split⟩ := List.exists_cons_of_ne_nil (splitSlashes_ne_nil text)
  simp [split]

theorem splitSlashes_name {name : List Char} (h : '/' ∉ name) : splitSlashes name = [name] := by
  induction name with
  | nil => rfl
  | cons c rest ih =>
    rw [List.mem_cons, not_or] at h
    exact splitSlashes_cons (Ne.symm h.1) (ih h.2)

theorem splitSlashes_append {name : List Char} (h : '/' ∉ name) (rest : List Char) :
    splitSlashes (name ++ '/' :: rest) = name :: splitSlashes rest := by
  induction name with
  | nil => exact splitSlashes_slash rest
  | cons c more ih =>
    rw [List.mem_cons, not_or] at h
    exact splitSlashes_cons (Ne.symm h.1) (ih h.2)

theorem slash_notMem_of_mem_splitSlashes {text name : List Char} (h : name ∈ splitSlashes text) :
    '/' ∉ name := by
  induction text generalizing name with
  | nil => simp_all
  | cons c rest ih =>
    by_cases slash : c = '/'
    · subst slash
      rw [splitSlashes_slash, List.mem_cons] at h
      rcases h with rfl | h
      · simp
      · exact ih h
    · obtain ⟨first, names, split⟩ := List.exists_cons_of_ne_nil (splitSlashes_ne_nil rest)
      rw [split] at ih
      rw [splitSlashes_cons slash split, List.mem_cons] at h
      rcases h with rfl | h
      · simp [Ne.symm slash, ih (by simp : first ∈ first :: names)]
      · exact ih (List.mem_cons_of_mem _ h)

/-- A written path has proper names. -/
theorem proper_ofString (text : String) : (ofString text).Proper := by
  intro name hname
  simp only [ofString, List.mem_filter, List.mem_map, Bool.and_eq_true, bne_iff_ne] at hname
  obtain ⟨⟨chars, hchars, rfl⟩, some_, notDot⟩ := hname
  exact ⟨some_, notDot, by simpa using slash_notMem_of_mem_splitSlashes hchars⟩

/-- The names between slashes are the names of the path that is read. -/
theorem splitSlashes_intercalate {names : List String} (some_ : names ≠ [])
    (proper : ∀ name ∈ names, ProperName name) :
    (splitSlashes ("/".intercalate names).toList).map String.ofList = names := by
  induction names with
  | nil => exact absurd rfl some_
  | cons name rest ih =>
    have noSlash := (proper name (by simp)).2.2
    cases rest with
    | nil => simp [splitSlashes_name noSlash]
    | cons next more =>
      have others := ih (by simp) fun name h => proper name (List.mem_cons_of_mem _ h)
      have text : ("/".intercalate (name :: next :: more)).toList =
          name.toList ++ '/' :: ("/".intercalate (next :: more)).toList := by
        simp
      rw [text, splitSlashes_append noSlash, List.map_cons, others, String.ofList_toList]

theorem rootOf_intercalate {names : List String} (proper : ∀ name ∈ names, ProperName name) :
    rootOf ("/".intercalate names).toList = "" := by
  cases names with
  | nil => rfl
  | cons name rest =>
    obtain ⟨tail, text⟩ :
        ∃ tail, ("/".intercalate (name :: rest)).toList = name.toList ++ tail := by
      cases rest with
      | nil => exact ⟨[], by simp⟩
      | cons next more => exact ⟨'/' :: ("/".intercalate (next :: more)).toList, by simp⟩
    obtain ⟨some_, -, noSlash⟩ := proper name (by simp)
    rw [text]
    cases chars : name.toList with
    | nil => exact absurd (String.toList_eq_nil_iff.mp chars) some_
    | cons c others =>
      rw [chars, List.mem_cons, not_or] at noSlash
      simp [rootOf, Ne.symm noSlash.1]

/-- Proper names are read from between slashes. -/
theorem ofString_intercalate {names : List String} (proper : ∀ name ∈ names, ProperName name) :
    ofString ("/".intercalate names) = ⟨"", names⟩ := by
  rw [ofString, rootOf_intercalate proper]
  cases names with
  | nil => rfl
  | cons name rest =>
    rw [splitSlashes_intercalate (by simp) proper, List.filter_eq_self.mpr]
    intro name hname
    simp [(proper name hname).1, (proper name hname).2.1]

theorem intercalate_inj {names others : List String} (proper : ∀ name ∈ names, ProperName name)
    (proper' : ∀ name ∈ others, ProperName name)
    (h : "/".intercalate names = "/".intercalate others) : names = others := by
  have paths := congrArg ofString h
  rw [ofString_intercalate proper, ofString_intercalate proper'] at paths
  exact congrArg Path.names paths

/-- A path inside the folder is read from what is written for it. -/
theorem ofString_toString {path : Path} (inside : path.root = "") (proper : path.Proper) :
    ofString path.toString = path := by
  obtain ⟨root, names⟩ := path
  cases inside
  cases names with
  | nil => rfl
  | cons name rest =>
    have text : toString ⟨"", name :: rest⟩ = "/".intercalate (name :: rest) := by
      simp [toString]
    rw [text, ofString_intercalate proper]

end Path

/-! ## Directories -/

namespace Folder

open ScopeScript.Path

variable {folder : Folder} {reached names steps : List String}

attribute [local simp] walk

theorem isDirectory_nil (folder : Folder) : folder.isDirectory [] = true := rfl

theorem isDirectory_iff : folder.isDirectory names = true ↔
    names = [] ∨ ∃ key ∈ Entries.keys folder, names <+: (ofString key).names ∧
      names.length < (ofString key).names.length := by
  simp [isDirectory, Entries.keys]

/-- What is in front of a directory is one. -/
theorem isDirectory_of_prefix {front : List String} (h : folder.isDirectory names = true)
    (before : front <+: names) : folder.isDirectory front = true := by
  rw [isDirectory_iff] at h ⊢
  rcases h with rfl | ⟨key, hkey, leads, less⟩
  · exact .inl (List.prefix_nil.mp before)
  · exact .inr ⟨key, hkey, before.trans leads, Nat.lt_of_le_of_lt before.length_le less⟩

/-- A walk ends in something that is in a directory, and in a directory if its last step leads out
of one. -/
theorem isDirectory_walk (h : folder.walk reached steps = some names)
    (inside : folder.isDirectory reached.dropLast = true)
    (onward : steps ≠ [] → folder.isDirectory reached = true) :
    folder.isDirectory names.dropLast = true ∧
      (steps.getLast? = some ".." → folder.isDirectory names = true) := by
  -- a walk that goes on stands in a directory, one that ends may stand on a file in it
  fun_induction walk folder reached steps with
  | case1 reached =>
    cases h
    exact ⟨inside, by simp⟩
  | case2 => cases h
  | case3 reached rest notTop ih =>
    have before := isDirectory_of_prefix inside (List.dropLast_prefix _)
    obtain ⟨inDirectory, upwards⟩ := ih h before fun _ => inside
    refine ⟨inDirectory, fun up => ?_⟩
    cases rest with
    | nil =>
      cases h
      exact inside
    | cons step more => exact upwards (by simpa using up)
  | case4 reached name rest down enters ih =>
    obtain ⟨inDirectory, upwards⟩ := ih h (by simpa using onward (by simp)) fun more => by
      simpa [more] using enters
    refine ⟨inDirectory, fun up => ?_⟩
    cases rest with
    | nil => exact absurd (by simpa using up) down
    | cons step more => exact upwards (by simpa using up)
  | case5 => cases h

/-- A walk along proper names reaches proper names. -/
theorem properName_walk (h : folder.walk reached steps = some names)
    (before : ∀ name ∈ reached, ProperName name) (proper : ∀ name ∈ steps, ProperName name) :
    ∀ name ∈ names, ProperName name := by
  fun_induction walk folder reached steps with
  | case1 reached =>
    cases h
    exact before
  | case2 => cases h
  | case3 reached rest notTop ih =>
    exact ih h (fun name hname => before name (List.dropLast_subset _ hname))
      fun name hname => proper name (List.mem_cons_of_mem _ hname)
  | case4 reached name rest _ open_ ih =>
    refine ih h ?_ fun name hname => proper name (List.mem_cons_of_mem _ hname)
    intro other hother
    rcases List.mem_append.mp hother with hother | hother
    · exact before other hother
    · exact proper other (by simp_all)
  | case5 => cases h

theorem walk_up (folder : Folder) (reached rest : List String) :
    folder.walk reached (".." :: rest) =
      if reached.isEmpty then none else folder.walk reached.dropLast rest := by
  rw [walk]

theorem walk_down (folder : Folder) (reached rest : List String) {name : String}
    (down : name ≠ "..") :
    folder.walk reached (name :: rest) =
      if rest.isEmpty || folder.isDirectory (reached ++ [name]) then
        folder.walk (reached ++ [name]) rest
      else none := by
  rw [walk]
  exact fun up => absurd up down

/-- The last step of a walk enters what it names, and could enter anything else in its place. -/
theorem walk_last {last : String} (h : folder.walk reached (steps ++ [last]) = some names)
    (down : last ≠ "..") :
    ∃ front, names = front ++ [last] ∧
      ∀ other, other ≠ ".." → folder.walk reached (steps ++ [other]) = some (front ++ [other]) := by
  induction steps generalizing reached with
  | nil =>
    refine ⟨reached, ?_, fun other down' => ?_⟩
    · simpa [walk_down _ _ _ down] using h.symm
    · simp [walk_down _ _ _ down']
  | cons step rest ih =>
    by_cases up : step = ".."
    · subst up
      rw [List.cons_append, walk_up] at h
      split at h
      · cases h
      · rename_i notTop
        obtain ⟨front, hnames, others⟩ := ih h
        refine ⟨front, hnames, fun other down' => ?_⟩
        rw [List.cons_append, walk_up, if_neg notTop, others other down']
    · rw [List.cons_append, walk_down _ _ _ up] at h
      split at h
      · rename_i enters
        obtain ⟨front, hnames, others⟩ := ih h
        refine ⟨front, hnames, fun other down' => ?_⟩
        have enters' : ((rest ++ [other]).isEmpty || folder.isDirectory (reached ++ [step])) =
            true := by
          simpa using enters
        rw [List.cons_append, walk_down _ _ _ up, if_pos enters', others other down']
      · cases h

/-! ## Finding and writing -/

/-- What a path leads to is decided by the names that it reaches. -/
theorem find_of_walk {path : Path} (proper : path.Proper) (inside : path.root = "")
    (h : folder.walk [] path.names = some names) :
    folder.find path = if folder.isDirectory names then .directory
      else (folder.lookup ("/".intercalate names)).getD .missing := by
  have names_ := ofString_intercalate (properName_walk h (by simp) proper)
  simp [find, place?, inside, h, names_]

theorem write_of_walk {path : Path} (inside : path.root = "")
    (h : folder.walk [] path.names = some names) (content : String) :
    folder.write path content = Entries.put folder ("/".intercalate names) (.text content) := by
  simp [write, place?, inside, h]

/-- A new file makes no new directories. -/
theorem isDirectory_put (proper : ∀ name ∈ names, ProperName name)
    (inside : folder.isDirectory names.dropLast = true) (document : Document)
    (place : List String) :
    isDirectory (Entries.put folder ("/".intercalate names) document) place =
      folder.isDirectory place := by
  rw [Bool.eq_iff_iff, isDirectory_iff]
  constructor
  · rintro (rfl | ⟨key, hkey, leads, less⟩)
    · exact isDirectory_iff.mpr (.inl rfl)
    · rcases Entries.mem_keys_put.mp hkey with old | rfl
      · exact isDirectory_iff.mpr (.inr ⟨key, old, leads, less⟩)
      · rw [ofString_intercalate proper] at leads less
        refine isDirectory_of_prefix inside ?_
        rw [List.dropLast_eq_take]
        exact List.prefix_take_iff.mpr ⟨leads, Nat.le_sub_one_of_lt less⟩
  · intro h
    refine (isDirectory_iff.mp h).imp_right ?_
    rintro ⟨key, hkey, front⟩
    exact ⟨key, Entries.mem_keys_put.mpr (.inl hkey), front⟩

/-- Folders with the same directories are walked alike. -/
theorem walk_congr {other : Folder}
    (same : ∀ place, other.isDirectory place = folder.isDirectory place)
    (reached steps : List String) : other.walk reached steps = folder.walk reached steps := by
  fun_induction walk folder reached steps with
  | case1 reached => rfl
  | case2 reached rest top => rw [walk_up, if_pos top]
  | case3 reached rest notTop ih => rw [walk_up, if_neg notTop, ih]
  | case4 reached name rest down enters ih => rw [walk_down _ _ _ down, same, if_pos enters, ih]
  | case5 reached name rest down stays => rw [walk_down _ _ _ down, same, if_neg stays]

/-- What a path leads to after a file is written: that file, if the path leads to its place, and
otherwise what it led to before. -/
theorem find_write {path : Path} (proper : path.Proper) (inside : path.root = "")
    (h : folder.walk [] path.names = some names) (free : folder.isDirectory names = false)
    (content : String) {other : Path} (proper' : other.Proper) (inside' : other.root = "") :
    (folder.write path content).find other =
      if folder.walk [] other.names = some names then .text content else folder.find other := by
  have namesProper := properName_walk h (by simp) proper
  have same := isDirectory_put namesProper
    (isDirectory_walk h folder.isDirectory_nil fun _ => folder.isDirectory_nil).1 (.text content)
  rw [write_of_walk inside h]
  have walked := walk_congr same [] other.names
  cases hother : folder.walk [] other.names with
  | none => simp [find, place?, inside', walked, hother]
  | some place =>
    rw [find_of_walk proper' inside' (walked.trans hother), find_of_walk proper' inside' hother,
      same, Entries.lookup_put]
    by_cases here : place = names
    · simp [here, free]
    · have apart : "/".intercalate place ≠ "/".intercalate names := fun equal =>
        here (intercalate_inj (properName_walk hother (by simp) proper') namesProper equal)
      simp [here, apart]

/-- A path to a file stays in the folder and is walked to the end. -/
theorem walk_of_text {path : Path} (proper : path.Proper) {content : String}
    (h : folder.find path = .text content) :
    path.root = "" ∧ ∃ names, folder.walk [] path.names = some names ∧
      folder.isDirectory names = false := by
  have placed : folder.place? path ≠ none := by
    intro nowhere
    simp only [find, nowhere] at h
    split at h <;> cases h
  have inside : path.root = "" := by
    by_cases inside : path.root = ""
    · exact inside
    · exact absurd (if_neg inside) placed
  cases hwalk : folder.walk [] path.names with
  | none =>
    rw [place?, if_pos inside, hwalk] at placed
    exact absurd rfl placed
  | some names =>
    rw [find_of_walk proper inside hwalk] at h
    refine ⟨inside, names, rfl, ?_⟩
    cases directory : folder.isDirectory names with
    | false => rfl
    | true => simp [directory] at h

/-- Beside a file there is a place for every name that starts as its name does. -/
theorem walk_addEnding {path : Path} (proper : path.Proper) {content : String}
    (h : folder.find path = .text content) {ending : String} (long : 2 < ending.length) :
    path.root = "" ∧ ∃ front last,
      folder.walk [] (path.addEnding ending).names = some (front ++ [last ++ ending]) := by
  obtain ⟨inside, names, hwalk, isFile⟩ := walk_of_text proper h
  have directories := isDirectory_walk hwalk folder.isDirectory_nil fun _ => folder.isDirectory_nil
  rcases List.eq_nil_or_concat path.names with none | ⟨steps, last, hnames⟩
  · rw [none] at hwalk
    cases hwalk
    cases isFile
  · rw [List.concat_eq_append] at hnames
    rw [hnames] at hwalk directories
    have down : last ≠ ".." := by
      rintro rfl
      rw [directories.2 (by simp)] at isFile
      cases isFile
    have down' : last ++ ending ≠ ".." := by
      intro up
      have length := congrArg String.length up
      simp only [String.length_append] at length
      have : "..".length = 2 := rfl
      omega
    obtain ⟨front, -, others⟩ := walk_last hwalk down
    refine ⟨inside, front, last, ?_⟩
    rw [addEnding, hnames]
    simpa using others (last ++ ending) down'

end Folder

end ScopeScript
