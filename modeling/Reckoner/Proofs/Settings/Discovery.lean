import Reckoner.Proofs.Files.Resolution
import Reckoner.Settings.Discovery

/-! # Looking for settings

The search for a settings file goes up from a folder. In every file system it ends at the first place
whose question is not answered with no: with the settings file that is there, or with the reason why the
place cannot be asked about. In a tree only the very first place can be one that cannot be asked about.
Only what the search starts from is excused when it is too long: its last name is dropped, and a name that
is too long anywhere else is met again at once.

* **`StopsAt`** — the place where a search through some folders stops.
* **`firstSettings_eq_error_iff`, `firstSettings_eq_some_iff`, `firstSettings_eq_none_iff`** — what comes
  of a search through some folders.
* **`NearestSettings`** — the nearest settings file at or above a folder.
* **`FileTree.walk_eq_tooLong`** — what is too long on the way up is too long at the first place.
* **`findSettings_overlong`** — a search from below a name that is too long.
* **`findSettings_overlongLast`** — a search from such a name.
* **`findSettings_cases`** — what comes of a search. -/

namespace Reckoner

/-! ## Any file system -/

section Systems

variable {ε : Type} {s : FileSystem ε} {folder place : Path} {folders : List Path} {answer : Except ε Bool}

/-- A search through some folders **stops at** one of them with an answer: the question for a settings
file is answered like that there, and with no before. -/
def StopsAt (s : FileSystem ε) (folders : List Path) (place : Path) (answer : Except ε Bool) : Prop :=
  ∃ nearer farther, folders = nearer ++ place :: farther ∧
    (∀ folder ∈ nearer, s.isFile (folder.child settingsFile).route = .ok false) ∧
    s.isFile (place.child settingsFile).route = answer

/-- There is nothing to stop at without folders. -/
theorem not_stopsAt_nil : ¬ StopsAt s [] place answer := by
  rintro ⟨nearer, farther, hnil, -⟩
  exact List.append_ne_nil_of_right_ne_nil nearer (List.cons_ne_nil _ _) hnil.symm

/-- A search stops at the first folder, or goes on after a no. -/
theorem stopsAt_cons_iff : StopsAt s (folder :: folders) place answer ↔
    place = folder ∧ s.isFile (folder.child settingsFile).route = answer ∨
      s.isFile (folder.child settingsFile).route = .ok false ∧ StopsAt s folders place answer := by
  constructor
  · rintro ⟨nearer, farther, hfolders, hnearer, hplace⟩
    cases nearer with
    | nil =>
      cases hfolders
      exact .inl ⟨rfl, hplace⟩
    | cons first nearer =>
      cases hfolders
      obtain ⟨hfirst, hrest⟩ := List.forall_mem_cons.mp hnearer
      exact .inr ⟨hfirst, nearer, farther, rfl, hrest, hplace⟩
  · rintro (⟨rfl, hplace⟩ | ⟨hfirst, nearer, farther, rfl, hnearer, hplace⟩)
    · exact ⟨[], folders, rfl, List.forall_mem_nil _, hplace⟩
    · exact ⟨folder :: nearer, farther, rfl, List.forall_mem_cons.mpr ⟨hfirst, hnearer⟩, hplace⟩

/-- **A search through some folders fails** where it stops with a failure. -/
theorem firstSettings_eq_error_iff {e : ε} :
    firstSettings s folders = .error e ↔ ∃ place, StopsAt s folders place (.error e) := by
  induction folders with
  | nil => exact iff_of_false nofun fun ⟨_, h⟩ => not_stopsAt_nil h
  | cons folder folders ih =>
    simp only [stopsAt_cons_iff]
    rw [firstSettings]
    cases s.isFile (folder.child settingsFile).route with
    | error e' => simp
    | ok found =>
      cases found with
      | true => simp
      | false => simpa using ih

/-- **It ends with a settings file** where it stops with one. -/
theorem firstSettings_eq_some_iff {p : Path} : firstSettings s folders = .ok (some p) ↔
    ∃ place, StopsAt s folders place (.ok true) ∧ p = place.child settingsFile := by
  induction folders with
  | nil => exact iff_of_false nofun fun ⟨_, h, _⟩ => not_stopsAt_nil h
  | cons folder folders ih =>
    simp only [stopsAt_cons_iff]
    rw [firstSettings]
    cases s.isFile (folder.child settingsFile).route with
    | error e' => simp
    | ok found =>
      cases found with
      | true => simp [eq_comm]
      | false => simpa using ih

/-- **It ends without one** if the answer is always no. -/
theorem firstSettings_eq_none_iff : firstSettings s folders = .ok none ↔
    ∀ folder ∈ folders, s.isFile (folder.child settingsFile).route = .ok false := by
  induction folders with
  | nil => exact iff_of_true rfl (List.forall_mem_nil _)
  | cons folder folders ih =>
    rw [List.forall_mem_cons, firstSettings]
    cases s.isFile (folder.child settingsFile).route with
    | error e' => simp
    | ok found =>
      cases found with
      | true => simp
      | false => simpa using ih

/-- A search goes through the folder that it begins with and those above. -/
theorem findSettings_of_resolve {start : Route} (h : s.resolve (searchFolder s start) = .ok folder) :
    findSettings s start = firstSettings s folder.ancestors := by
  rw [findSettings, h]
  rfl

end Systems

/-! ## Walks -/

namespace FileTree

/-- The name of the settings file is not too long. -/
theorem walk_settingsFile_ne_tooLong (above : List FileTree) (place : FileTree) :
    walk above place [settingsFile] ≠ .tooLong :=
  walk_ne_tooLong (by decide)

/-- **What is too long on the way** to a settings file is met on every longer way. -/
theorem walk_eq_tooLong {above : List FileTree} {place : FileTree} {names : List String}
    (h : walk above place (names ++ [settingsFile]) = .tooLong) (rest : List String) :
    walk above place (names ++ rest) = .tooLong := by
  rcases walk_append above place names with ⟨above', place', hwalk⟩ | ⟨stop, -, hwalk⟩
  · exact absurd ((hwalk _).symm.trans h) (walk_settingsFile_ne_tooLong above' place')
  · exact (hwalk rest).trans ((hwalk _).symm.trans h)

end FileTree

/-! ## The places of a search -/

/-- The settings file in a folder has no null character in its path if the folder has none. -/
theorem plain_settingsFile {names : List String} (plain : names.any holdsNull = false) :
    (names ++ [settingsFile]).any holdsNull = false := by
  rw [List.any_append, plain]
  decide

/-- **What can be asked about a folder** can be asked about every folder above it. -/
theorem reach_settingsFile_ne_tooLong {t : FileTree} {names more : List String}
    (plain : (names ++ more).any holdsNull = false)
    (h : t.reach ⟨names ++ more ++ [settingsFile]⟩ ≠ .tooLong) :
    t.reach ⟨names ++ [settingsFile]⟩ ≠ .tooLong := by
  have plain' : names.any holdsNull = false := by
    rw [List.any_append, Bool.or_eq_false_iff] at plain
    exact plain.1
  have hsize : (Path.mk (names ++ [settingsFile])).text.utf8ByteSize ≤
      (Path.mk (names ++ more ++ [settingsFile])).text.utf8ByteSize := by
    rw [Path.text, Path.text, String.utf8ByteSize_append, String.utf8ByteSize_append]
    exact Nat.add_le_add_left (utf8ByteSize_intercalate_le names more (List.cons_ne_nil _ _)) _
  intro hlong
  rw [FileTree.reach_of_plain (plain_settingsFile plain')] at hlong
  refine h ?_
  rw [FileTree.reach_of_plain (plain_settingsFile plain)]
  split at hlong
  · next htext => rw [if_pos (Nat.lt_of_lt_of_le htext hsize)]
  · split
    · rfl
    · rw [List.append_assoc]
      exact FileTree.walk_eq_tooLong hlong _

/-- The folders above a path begin as the path does. -/
theorem exists_of_mem_ancestorsOf {names : List String} {folder : Path}
    (h : folder ∈ Path.ancestorsOf names) : ∃ more, names.reverse = folder.names ++ more := by
  induction names with
  | nil =>
    obtain rfl := List.mem_singleton.mp h
    exact ⟨[], rfl⟩
  | cons name above ih =>
    rcases List.mem_cons.mp h with rfl | hmem
    · exact ⟨[], (List.append_nil _).symm⟩
    · obtain ⟨more, hmore⟩ := ih hmem
      exact ⟨more ++ [name], by rw [List.reverse_cons, hmore, List.append_assoc]⟩

/-- A path comes first, before what lies above it. -/
theorem Path.exists_ancestors (p : Path) : ∃ above, p.ancestors = p :: above := by
  obtain ⟨names⟩ := p
  rw [ancestors]
  cases hnames : names.reverse with
  | nil =>
    rw [List.reverse_eq_nil_iff.mp hnames]
    exact ⟨[], rfl⟩
  | cons name above =>
    refine ⟨ancestorsOf above, ?_⟩
    rw [ancestorsOf, ← hnames, List.reverse_reverse]

/-! ## The nearest settings file -/

/-- The **nearest settings file** at or above a folder: one in a folder that the path of the folder begins
with, such that no longer beginning has one; or none, if no beginning has one. -/
inductive NearestSettings (t : FileTree) (folder : Path) : Option Path → Prop
  | found {names more : List String} (above : folder.names = names ++ more)
      (file : t.HasFile ⟨names ++ [settingsFile]⟩)
      (nearest : ∀ names' more', folder.names = names' ++ more' → more'.length < more.length →
        ¬ t.HasFile ⟨names' ++ [settingsFile]⟩) :
      NearestSettings t folder (some ⟨names ++ [settingsFile]⟩)
  | none (nowhere : ∀ names more, folder.names = names ++ more →
      ¬ t.HasFile ⟨names ++ [settingsFile]⟩) : NearestSettings t folder none

/-- No settings file is nearer than that of the folder itself. -/
theorem NearestSettings.here {t : FileTree} {folder : Path} (h : t.HasFile (folder.child settingsFile)) :
    NearestSettings t folder (some (folder.child settingsFile)) :=
  .found (List.append_nil _).symm h fun _ _ _ hless => absurd hless (Nat.not_lt_zero _)

/-- A folder without a settings file has the nearest one of the folder above it. -/
theorem NearestSettings.below {t : FileTree} {names : List String} {name : String} {found : Option Path}
    (h : NearestSettings t ⟨names⟩ found) (here : ¬ t.HasFile ⟨names ++ [name] ++ [settingsFile]⟩) :
    NearestSettings t ⟨names ++ [name]⟩ found := by
  -- a beginning is the whole path or a beginning of the path above
  have hcases : ∀ names' more' : List String, names ++ [name] = names' ++ more' →
      names' = names ++ [name] ∨ ∃ inner, more' = inner ++ [name] ∧ names = names' ++ inner := by
    intro names' more' heq
    rcases List.eq_nil_or_concat more' with rfl | ⟨inner, last, rfl⟩
    · exact .inl (by rw [heq, List.append_nil])
    · rw [List.concat_eq_append, ← List.append_assoc] at heq
      obtain ⟨hnames, hlast⟩ := List.append_inj' heq rfl
      cases hlast
      exact .inr ⟨inner, List.concat_eq_append, hnames⟩
  cases h with
  | @found names' more' above file nearest =>
    have hbegins : names ++ [name] = names' ++ (more' ++ [name]) := by
      rw [← List.append_assoc, ← above]
    refine .found hbegins file ?_
    intro names₁ more₁ heq hless
    rcases hcases names₁ more₁ heq with rfl | ⟨inner, rfl, hnames⟩
    · exact here
    · refine nearest names₁ inner hnames ?_
      rw [List.length_append, List.length_append] at hless
      omega
  | none nowhere =>
    refine .none fun names₁ more₁ heq => ?_
    rcases hcases names₁ more₁ heq with rfl | ⟨inner, rfl, hnames⟩
    · exact here
    · exact nowhere names₁ inner hnames

/-- **The first settings file on the way up** is the nearest one, if all the places can be asked about. -/
theorem nearest_firstSettings {t : FileTree} (current : Path) {names : List String}
    (askable : ∀ folder ∈ Path.ancestorsOf names, t.reach (folder.child settingsFile) ≠ .tooLong) :
    ∃ found, firstSettings (t.system current) (Path.ancestorsOf names) = .ok found ∧
      NearestSettings t ⟨names.reverse⟩ found := by
  have hanswer : ∀ p, (t.system current).isFile p.route = t.isFile p := fun p => rfl
  induction names with
  | nil =>
    obtain ⟨found, hfound⟩ := isFile_eq_ok (askable Path.root (List.mem_singleton_self _))
    rw [Path.ancestorsOf, firstSettings, hanswer, hfound]
    cases found with
    | true => exact ⟨_, rfl, .here (hasFile_of_isFile hfound)⟩
    | false =>
      refine ⟨none, rfl, .none fun names more heq => ?_⟩
      rw [(List.append_eq_nil_iff.mp heq.symm).1]
      exact not_hasFile_of_isFile hfound
  | cons name above ih =>
    obtain ⟨hhere, habove⟩ := List.forall_mem_cons.mp askable
    obtain ⟨found, hfound⟩ := isFile_eq_ok hhere
    rw [Path.ancestorsOf, firstSettings, hanswer, hfound]
    cases found with
    | true => exact ⟨_, rfl, .here (hasFile_of_isFile hfound)⟩
    | false =>
      obtain ⟨found, hrest, hnearest⟩ := ih habove
      have hnone := not_hasFile_of_isFile hfound
      rw [Path.child, List.reverse_cons] at hnone
      rw [List.reverse_cons]
      exact ⟨found, hrest, hnearest.below hnone⟩

/-! ## Searches -/

section Searches

variable {t : FileTree} {current : Path} {start outer : Route}

/-- The folder where a search begins has no null character in its path if the start has none. -/
theorem any_holdsNull_searchFolder (plain : (start.path current).names.any holdsNull = false) :
    ((searchFolder (t.system current) start).path current).names.any holdsNull = false := by
  unfold searchFolder
  split
  · exact plain
  · exact Route.any_holdsNull_parent plain

/-- A start with a null character is refused. -/
theorem findSettings_malformed (h : (start.path current).names.any holdsNull = true) :
    findSettings (t.system current) start = .error .malformed := by
  have hsearch : searchFolder (t.system current) start = start := by
    have hanswer : (t.system current).isFile start = .ok false := by
      show t.isFileFrom current start = _
      rw [FileTree.isFileFrom, FileTree.reachFrom, if_pos h]
    rw [searchFolder, hanswer]
  rw [findSettings, hsearch]
  show (start.path current).resolve.bind _ = _
  rw [Path.resolve, if_pos h]
  rfl

/-- **The folder that a search begins with**: that of the start, or that of the file or of the place which
cannot be asked about. -/
def firstFolder (t : FileTree) (current : Path) (start : Route) : Path :=
  ((searchFolder (t.system current) start).path current).resolved

/-- A search without null characters looks at the folders from the first one up. -/
theorem findSettings_eq (plain : (start.path current).names.any holdsNull = false) :
    findSettings (t.system current) start =
      firstSettings (t.system current) (firstFolder t current start).ancestors :=
  findSettings_of_resolve (resolve_eq_ok (any_holdsNull_searchFolder plain))

/-- **A search fails at its first place** if that cannot be asked about. -/
theorem findSettings_tooLong (plain : (start.path current).names.any holdsNull = false)
    (h : t.reach ((firstFolder t current start).child settingsFile) = .tooLong) :
    findSettings (t.system current) start =
      .error (.tooLong ((firstFolder t current start).child settingsFile).route) := by
  obtain ⟨above, hancestors⟩ := (firstFolder t current start).exists_ancestors
  have hanswer : (t.system current).isFile ((firstFolder t current start).child settingsFile).route =
      .error (.tooLong ((firstFolder t current start).child settingsFile).route) := by
    show t.isFileFrom current _ = _
    rw [FileTree.isFileFrom, FileTree.reachFrom_route, h]
  rw [findSettings_eq plain, hancestors, firstSettings, hanswer]

/-- **A search finds the nearest settings file** if its first place can be asked about: then all the
others can. -/
theorem exists_nearest_findSettings (plain : (start.path current).names.any holdsNull = false)
    (h : t.reach ((firstFolder t current start).child settingsFile) ≠ .tooLong) :
    ∃ found, findSettings (t.system current) start = .ok found ∧
      NearestSettings t (firstFolder t current start) found := by
  have hplain : (firstFolder t current start).names.any holdsNull = false :=
    any_holdsNull_resolved (any_holdsNull_searchFolder plain)
  rw [findSettings_eq plain]
  generalize firstFolder t current start = first at h hplain
  have haskable : ∀ folder ∈ Path.ancestorsOf first.names.reverse,
      t.reach (folder.child settingsFile) ≠ .tooLong := by
    intro folder hmem
    obtain ⟨more, hmore⟩ := exists_of_mem_ancestorsOf hmem
    rw [List.reverse_reverse] at hmore
    rw [hmore] at hplain
    rw [Path.child, hmore] at h
    exact reach_settingsFile_ne_tooLong hplain h
  obtain ⟨found, hfound, hnearest⟩ := nearest_firstSettings current haskable
  rw [List.reverse_reverse] at hnearest
  exact ⟨found, hfound, hnearest⟩

/-- Where a place that is too long is searched from. -/
theorem searchFolder_of_tooLong (h : t.reachFrom current start = .tooLong) :
    searchFolder (t.system current) start = start.parent := by
  have hanswer : (t.system current).isFile start = .error (.tooLong start) := by
    show t.isFileFrom current start = _
    rw [FileTree.isFileFrom, h]
  rw [searchFolder, hanswer]

/-- Some names further, a route stands for a path that is further by the same names. -/
@[simp] theorem Route.names_extend (r : Route) (current : Path) (names : List String) :
    ((r.extend names).path current).names = (r.path current).names ++ names := by
  rw [path, extend, path, List.append_assoc]

/-- A name that is too long, below a folder, makes every route through it too long. -/
theorem reachFrom_overlong {name : String} {rest : List String}
    (isFolder : t.reachFrom current outer = .folder) (long : maxNameBytes < name.utf8ByteSize)
    (plain : ((outer.extend (name :: rest)).path current).names.any holdsNull = false) :
    t.reachFrom current (outer.extend (name :: rest)) = .tooLong := by
  have hplain : (outer.path current).names.any holdsNull = false := by
    rw [Route.names_extend, List.any_append, Bool.or_eq_false_iff] at plain
    exact plain.1
  rw [FileTree.reachFrom_of_plain hplain] at isFolder
  rw [FileTree.reachFrom_of_plain plain]
  split at isFolder
  · cases isFolder
  · obtain ⟨above, entries, hwalk⟩ := FileTree.exists_of_walk_eq_folder isFolder
    split
    · rfl
    · rw [Route.names_extend]
      exact (hwalk _).trans (FileTree.walk_overlong long rest)

/-- Where a name that is too long stands below a folder, every path through it is too long. -/
theorem reach_overlong {name : String} {rest : List String} (isFolder : t.reachFrom current outer = .folder)
    (long : maxNameBytes < name.utf8ByteSize)
    (plain : ((outer.path current).names ++ name :: rest).any holdsNull = false) :
    t.reach ⟨(outer.path current).names ++ name :: rest⟩ = .tooLong := by
  have hplain : (outer.path current).names.any holdsNull = false := by
    rw [List.any_append, Bool.or_eq_false_iff] at plain
    exact plain.1
  rw [FileTree.reachFrom_of_plain hplain] at isFolder
  rw [FileTree.reach_of_plain plain]
  split at isFolder
  · cases isFolder
  · obtain ⟨above, entries, hwalk⟩ := FileTree.exists_of_walk_eq_folder isFolder
    split
    · rfl
    · exact (hwalk _).trans (FileTree.walk_overlong long rest)

/-- Without its last name, a route that is some names further is further by the others. -/
@[simp] theorem Route.parent_extend (r : Route) (names : List String) (last : String) :
    (r.extend (names ++ [last])).parent = r.extend names := by
  rw [parent, extend, extend, ← List.append_assoc, List.dropLast_concat]

/-- **A search from below a name that is too long** fails: the last name of its start is dropped, and that
is another one. -/
theorem findSettings_overlong {name last : String} {rest : List String}
    (isFolder : t.reachFrom current outer = .folder) (long : maxNameBytes < name.utf8ByteSize)
    (plain : ((outer.extend (name :: (rest ++ [last]))).path current).names.any holdsNull = false)
    (forward : ".." ∉ (outer.path current).names ++ rest) :
    findSettings (t.system current) (outer.extend (name :: (rest ++ [last]))) =
      .error (.tooLong
        (Path.mk ((outer.path current).names ++ name :: (rest ++ [settingsFile]))).route) := by
  have hsearch := searchFolder_of_tooLong (reachFrom_overlong isFolder long plain)
  rw [← List.cons_append, Route.parent_extend, List.cons_append] at hsearch
  have hplain : ((outer.path current).names ++ name :: rest).any holdsNull = false := by
    rw [Route.names_extend, ← List.cons_append, ← List.append_assoc, List.any_append,
      Bool.or_eq_false_iff] at plain
    exact plain.1
  have hforward : ".." ∉ (outer.path current).names ++ name :: rest := by
    rw [List.mem_append, not_or] at forward
    rw [List.mem_append, List.mem_cons, not_or, not_or]
    exact ⟨forward.1, (FileTree.ne_back_of_long long).symm, forward.2⟩
  have hfolder : (outer.extend (name :: rest)).path current =
      ⟨(outer.path current).names ++ name :: rest⟩ := congrArg Path.mk (outer.names_extend current _)
  have hfirst : (firstFolder t current (outer.extend (name :: (rest ++ [last])))).child settingsFile =
      ⟨(outer.path current).names ++ name :: (rest ++ [settingsFile])⟩ := by
    rw [firstFolder, hsearch, hfolder, Path.resolved_eq_self hforward, Path.child, List.append_assoc,
      List.cons_append]
  have hchildPlain := plain_settingsFile hplain
  rw [List.append_assoc, List.cons_append] at hchildPlain
  have hfails := reach_overlong isFolder long hchildPlain
  rw [← hfirst] at hfails
  rw [findSettings_tooLong plain hfails, hfirst]

/-- **A search from a name that is too long** goes on from the folder that would hold it. -/
theorem findSettings_overlongLast {name : String} (isFolder : t.reachFrom current outer = .folder)
    (long : maxNameBytes < name.utf8ByteSize)
    (plain : ((outer.extend [name]).path current).names.any holdsNull = false)
    (forward : ".." ∉ (outer.path current).names)
    (fits : ((outer.path current).child settingsFile).Fits) :
    ∃ found, findSettings (t.system current) (outer.extend [name]) = .ok found ∧
      NearestSettings t (outer.path current) found := by
  have hsearch := searchFolder_of_tooLong (reachFrom_overlong isFolder long plain)
  have hparent := outer.parent_extend [] name
  rw [List.nil_append] at hparent
  have houter : outer.extend [] = outer := by rw [Route.extend, List.append_nil]
  have hfirst : firstFolder t current (outer.extend [name]) = outer.path current := by
    rw [firstFolder, hsearch, hparent, houter, Path.resolved_eq_self forward]
  have hplain : (outer.path current).names.any holdsNull = false := by
    rw [Route.names_extend, List.any_append, Bool.or_eq_false_iff] at plain
    exact plain.1
  have haskable : t.reach ((outer.path current).child settingsFile) ≠ .tooLong := by
    rw [FileTree.reachFrom_of_plain hplain] at isFolder
    rw [Path.child, FileTree.reach_of_plain (plain_settingsFile hplain), ← Path.child,
      if_neg (Nat.not_lt_of_le fits)]
    split at isFolder
    · cases isFolder
    · obtain ⟨above, entries, hwalk⟩ := FileTree.exists_of_walk_eq_folder isFolder
      rw [Path.child, hwalk]
      exact FileTree.walk_settingsFile_ne_tooLong above (.folder entries)
  rw [← hfirst] at haskable
  have hfound := exists_nearest_findSettings plain haskable
  rwa [hfirst] at hfound

end Searches

/-- **What comes of looking for settings.** In every file system a search goes through the folder that it
begins with and those above, and stops at the first one where the answer is not no: if the question fails
there, the search fails for the same reason; if there is a settings file, the search ends with it. It ends
with none if the answer is always no. It also fails if the folder that it begins with cannot be told.

In a tree, a start with a null character is refused. Every other search fails if and only if its first
place, the settings file in the folder that it begins with, is too long to be asked about; otherwise it
ends with the nearest settings file at or above that folder, or with none if there is none. So it goes on
from the folder of a name that is too long; but when such a name stands anywhere else on the way, the
search fails. -/
theorem findSettings_cases {ε : Type} (s : FileSystem ε) (t : FileTree) (current : Path) (start : Route) :
    ((∀ e, s.resolve (searchFolder s start) = .error e → findSettings s start = .error e) ∧
      ∀ folder, s.resolve (searchFolder s start) = .ok folder →
        (∀ e, findSettings s start = .error e ↔ ∃ place, StopsAt s folder.ancestors place (.error e)) ∧
        (∀ p, findSettings s start = .ok (some p) ↔
          ∃ place, StopsAt s folder.ancestors place (.ok true) ∧ p = place.child settingsFile) ∧
        (findSettings s start = .ok none ↔
          ∀ place ∈ folder.ancestors, s.isFile (place.child settingsFile).route = .ok false)) ∧
    ((start.path current).names.any holdsNull = true →
      findSettings (t.system current) start = .error .malformed) ∧
    ((start.path current).names.any holdsNull = false →
      (t.reach ((firstFolder t current start).child settingsFile) = .tooLong →
        findSettings (t.system current) start =
          .error (.tooLong ((firstFolder t current start).child settingsFile).route)) ∧
      (t.reach ((firstFolder t current start).child settingsFile) ≠ .tooLong →
        ∃ found, findSettings (t.system current) start = .ok found ∧
          NearestSettings t (firstFolder t current start) found)) ∧
    (∀ (outer : Route) (name : String), t.reachFrom current outer = .folder →
      maxNameBytes < name.utf8ByteSize →
      ((outer.extend [name]).path current).names.any holdsNull = false →
      ".." ∉ (outer.path current).names → ((outer.path current).child settingsFile).Fits →
      ∃ found, findSettings (t.system current) (outer.extend [name]) = .ok found ∧
        NearestSettings t (outer.path current) found) ∧
    ∀ (outer : Route) (name last : String) (rest : List String),
      t.reachFrom current outer = .folder → maxNameBytes < name.utf8ByteSize →
      ((outer.extend (name :: (rest ++ [last]))).path current).names.any holdsNull = false →
      ".." ∉ (outer.path current).names ++ rest →
      findSettings (t.system current) (outer.extend (name :: (rest ++ [last]))) =
        .error (.tooLong
          (Path.mk ((outer.path current).names ++ name :: (rest ++ [settingsFile]))).route) := by
  refine ⟨⟨fun e he => ?_, fun folder hfolder => ?_⟩, findSettings_malformed,
    fun plain => ⟨findSettings_tooLong plain, exists_nearest_findSettings plain⟩,
    fun _ _ isFolder long plain forward fits =>
      findSettings_overlongLast isFolder long plain forward fits,
    fun _ _ _ _ isFolder long plain forward => findSettings_overlong isFolder long plain forward⟩
  · rw [findSettings, he]
    rfl
  · rw [findSettings_of_resolve hfolder]
    exact ⟨fun e => firstSettings_eq_error_iff, fun p => firstSettings_eq_some_iff,
      firstSettings_eq_none_iff⟩

/-- A name of more characters than a name may have. -/
def overlongName : String := String.ofList (List.replicate 256 'x')

/-- A folder with a settings file and another folder. -/
def settingsTree : FileTree :=
  .folder [(settingsFile, .file "version = 1\n".toUTF8), ("inner", .folder [])]

/-- Plain letters take one byte each. -/
@[simp] theorem utf8ByteSize_replicate (n : Nat) :
    (String.ofList (List.replicate n 'x')).utf8ByteSize = n := by
  induction n with
  | zero => rfl
  | succ n ih =>
    have hone : 'x'.utf8Size = 1 := rfl
    rw [List.replicate_succ, String.ofList_cons, String.utf8ByteSize_append,
      String.utf8ByteSize_singleton, ih, hone, Nat.add_comm]

/-- And none of them is the null character. -/
@[simp] theorem holdsNull_replicate (n : Nat) :
    holdsNull (String.ofList (List.replicate n 'x')) = false := by
  rw [holdsNull, String.toList_ofList]
  simp

/-- That name is too long. -/
theorem long_overlongName : maxNameBytes < overlongName.utf8ByteSize :=
  Nat.lt_of_lt_of_eq (by decide) (utf8ByteSize_replicate 256).symm

/-- It can be written otherwise. -/
@[simp] theorem plain_overlongName : holdsNull overlongName = false := holdsNull_replicate 256

/-- The settings file is at the top, and is not found from below a name that is too long. -/
theorem findSettings_belowOverlongName : settingsTree.HasFile ⟨[settingsFile]⟩ ∧
    ∀ found, findSettings (settingsTree.system .root) ⟨.root, [overlongName, "y"]⟩ ≠ .ok found := by
  refine ⟨⟨_, rfl⟩, fun found h => ?_⟩
  have isFolder : settingsTree.reachFrom .root ⟨.root, []⟩ = .folder := rfl
  have plain : (((Route.mk .root []).extend (overlongName :: ([] ++ ["y"]))).path .root).names.any
      holdsNull = false := by
    simp only [Route.path, Route.extend, Anchor.names, List.nil_append, List.any_cons,
      plain_overlongName]
    decide
  have hfails := findSettings_overlong isFolder long_overlongName plain (by decide)
  cases hfails.symm.trans h

/-- From a name that is too long, the settings file above its folder is found. -/
theorem findSettings_cases_overlongName :
    (∃ found, findSettings (settingsTree.system .root) ⟨.current, ["inner", overlongName]⟩ = .ok found ∧
      NearestSettings settingsTree ⟨["inner"]⟩ found) ∧
    (∃ found, findSettings (settingsTree.system ⟨["inner"]⟩) ⟨.current, ["..", "inner"]⟩ = .ok found ∧
      NearestSettings settingsTree ⟨["inner"]⟩ found) ∧
    findSettings (settingsTree.system .root) ⟨.root, ["inner", overlongName, "y", "z"]⟩ =
      .error (.tooLong (Path.mk ["inner", overlongName, "y", settingsFile]).route) ∧
    findSettings (settingsTree.system .root) ⟨.root, ["\x00"]⟩ = .error .malformed ∧
    findSettings (ε := Unit) ⟨fun _ => .error (), fun _ => .ok .root⟩ ⟨.current, []⟩ = .error () := by
  -- a file system that answers no question
  let silent : FileSystem Unit := ⟨fun _ => .error (), fun _ => .ok .root⟩
  obtain ⟨-, malformed, -, overlongLast, overlong⟩ :=
    findSettings_cases silent settingsTree .root ⟨.root, ["\x00"]⟩
  refine ⟨?_, ?_, ?_, ?_, ?_⟩
  · have isFolder : settingsTree.reachFrom .root ⟨.current, ["inner"]⟩ = .folder := rfl
    have plain : (((Route.mk .current ["inner"]).extend [overlongName]).path .root).names.any
        holdsNull = false := by
      simp only [Route.path, Route.extend, Anchor.names, Path.root, List.cons_append, List.nil_append,
        List.any_cons, plain_overlongName]
      decide
    exact overlongLast ⟨.current, ["inner"]⟩ overlongName isFolder long_overlongName plain (by decide)
      (by unfold Path.Fits; decide)
  · obtain ⟨-, -, searches, -⟩ :=
      findSettings_cases silent settingsTree ⟨["inner"]⟩ ⟨.current, ["..", "inner"]⟩
    exact (searches (by decide)).2 fun h => nomatch h
  · have isFolder : settingsTree.reachFrom .root ⟨.root, ["inner"]⟩ = .folder := rfl
    have plain : (((Route.mk .root ["inner"]).extend
        (overlongName :: (["y"] ++ ["z"]))).path .root).names.any holdsNull = false := by
      simp only [Route.path, Route.extend, Anchor.names, List.cons_append, List.nil_append,
        List.any_cons, plain_overlongName]
      decide
    exact overlong ⟨.root, ["inner"]⟩ overlongName "z" ["y"] isFolder long_overlongName plain (by decide)
  · exact malformed (by decide)
  · obtain ⟨⟨-, answered⟩, -⟩ := findSettings_cases silent settingsTree .root ⟨.current, []⟩
    exact ((answered .root rfl).1 ()).mpr ⟨Path.root, [], [], rfl, List.forall_mem_nil _, rfl⟩

end Reckoner
