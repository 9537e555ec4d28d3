import Reckoner.Proofs.Files.Addition
import Reckoner.Proofs.Settings.Discovery

/-! # The nearest settings file

A search for settings ends with the settings file in the deepest folder at or above its start that has one.
A nearer file shadows those above it, and files in other folders make no difference. But the start, and the
first file that is asked about, must not be too long as a whole: otherwise the search begins with a wrong
folder, or fails.

* **`NearestSettings.unique`, `NearestSettings.shadows`** — the nearest settings file.
* **`BeginsAt`** — the folder where a search from a place begins.
* **`Considered`** — the settings files in a folder and in those above it.
* **`findSettings_nearest`** — what comes of a search from a place with allowed names.
* **`findSettings_overlongStart`** — starts that are too long as a whole. -/

namespace Reckoner

/-- A settings file is **considered** from a folder if it is in that folder or in one above it. -/
def Considered (folder p : Path) : Prop :=
  ∃ names more, folder.names = names ++ more ∧ p = ⟨names ++ [settingsFile]⟩

namespace NearestSettings

variable {t t' : FileTree} {folder : Path} {found : Option Path}

/-- There is one nearest settings file at most. -/
theorem unique {other : Option Path} (h : NearestSettings t folder found)
    (h' : NearestSettings t folder other) : other = found := by
  cases h with
  | @found names more above file nearest =>
    cases h' with
    | @found names' more' above' file' nearest' =>
      have hlength : more'.length = more.length := by
        refine Nat.le_antisymm ?_ ?_
        · exact Nat.le_of_not_lt fun hless => nearest' names more above hless file
        · exact Nat.le_of_not_lt fun hless => nearest names' more' above' hless file'
      rw [(List.append_inj' (above'.symm.trans above) hlength).1]
    | none nowhere => exact absurd file (nowhere names more above)
  | none nowhere =>
    cases h' with
    | @found names' more' above' file' nearest' => exact absurd file' (nowhere names' more' above')
    | none _ => rfl

/-- **A nearer settings file shadows** one that is farther up. -/
theorem shadows (h : NearestSettings t folder found) {names more : List String}
    (above : folder.names = names ++ more) (file : t.HasFile ⟨names ++ [settingsFile]⟩) :
    ∃ inner more', folder.names = names ++ inner ++ more' ∧
      found = some ⟨names ++ inner ++ [settingsFile]⟩ := by
  cases h with
  | @found names' more' above' file' nearest =>
    have hlength : more'.length ≤ more.length :=
      Nat.le_of_not_lt fun hless => nearest names more above hless file
    rcases List.append_eq_append_iff.mp (above.symm.trans above') with
      ⟨inner, hnames, -⟩ | ⟨inner, hnames, hmore⟩
    · exact ⟨inner, more', by rw [above', hnames], by rw [hnames]⟩
    · have hinner : inner = [] := by
        rw [hmore, List.length_append] at hlength
        exact List.eq_nil_of_length_eq_zero (by omega)
      rw [hinner, List.append_nil] at hnames
      exact ⟨[], more', by rw [above', hnames, List.append_nil], by rw [hnames, List.append_nil]⟩
  | none nowhere => exact absurd file (nowhere names more above)

/-- There is none if and only if no folder has one. -/
theorem eq_none_iff (h : NearestSettings t folder found) :
    found = .none ↔ ∀ p, Considered folder p → ¬ t.HasFile p := by
  constructor
  · rintro rfl p ⟨names, more, above, rfl⟩
    cases h with
    | none nowhere => exact nowhere names more above
  · intro hnowhere
    exact h.unique (.none fun names more above => hnowhere _ ⟨names, more, above, rfl⟩) |>.symm

/-- Only the files that are considered matter. -/
theorem congr (same : ∀ p, Considered folder p → (t'.HasFile p ↔ t.HasFile p))
    (h : NearestSettings t folder found) : NearestSettings t' folder found := by
  cases h with
  | @found names more above file nearest =>
    refine .found above ((same _ ⟨names, more, above, rfl⟩).mpr file) ?_
    intro names' more' above' hless file'
    exact nearest names' more' above' hless ((same _ ⟨names', more', above', rfl⟩).mp file')
  | none nowhere =>
    refine .none fun names more above file => ?_
    exact nowhere names more above ((same _ ⟨names, more, above, rfl⟩).mp file)

end NearestSettings

/-! ## Where a search begins -/

/-- A search from a place **begins at** a folder: the folder of a file, and any other place itself. -/
inductive BeginsAt (t : FileTree) (current : Path) (start : Route) : Path → Prop
  | file (isFile : t.LeadsToFile current start) :
      BeginsAt t current start (start.parent.path current).resolved
  | place (noFile : ¬ t.LeadsToFile current start) : BeginsAt t current start (start.path current).resolved

section Searches

variable {t t' : FileTree} {current folder : Path} {start : Route}

/-- The first settings file that is asked about has allowed names. -/
theorem allowed_settingsFile (allowed : (start.path current).Allowed) :
    ((firstFolder t current start).child settingsFile).Allowed := by
  have hsearch : ((searchFolder (t.system current) start).path current).Allowed := by
    unfold searchFolder
    split
    · exact allowed
    · exact Route.allowed_parent allowed
  exact hsearch.resolved.child (by decide) (by decide)

/-- The search begins where it should, unless its start is too long. -/
theorem BeginsAt.firstFolder_eq (h : BeginsAt t current start folder)
    (allowed : (start.path current).Allowed) (fits : start.Fits) :
    firstFolder t current start = folder := by
  have hreach : t.reachFrom current start ≠ .tooLong := fun hlong =>
    (FileTree.reachFrom_eq_tooLong_iff allowed).mp hlong fits
  obtain ⟨found, hfound⟩ := isFileFrom_eq_ok hreach
  have hanswer : (t.system current).isFile start = .ok found := hfound
  rw [firstFolder, searchFolder, hanswer]
  cases found with
  | true =>
    cases h with
    | file _ => rfl
    | place noFile => exact absurd (leadsToFile_of_isFileFrom hfound) noFile
  | false =>
    cases h with
    | file isFile => exact absurd isFile (not_leadsToFile_of_isFileFrom hfound)
    | place _ => rfl

/-- **A search from a place** finds the nearest settings file, if the first one can be asked about. -/
theorem exists_nearest_of_fits (allowed : (start.path current).Allowed)
    (first : firstFolder t current start = folder) (askable : (folder.child settingsFile).Fits) :
    ∃ found, findSettings (t.system current) start = .ok found ∧ NearestSettings t folder found := by
  subst first
  refine exists_nearest_findSettings allowed.plain fun hlong => ?_
  exact (FileTree.reach_eq_tooLong_iff (allowed_settingsFile allowed)).mp hlong askable

/-- A search fails if its first settings file is too long to be asked about. -/
theorem findSettings_of_not_fits (allowed : (start.path current).Allowed)
    (first : firstFolder t current start = folder) (overlong : ¬ (folder.child settingsFile).Fits) :
    findSettings (t.system current) start = .error (.tooLong (folder.child settingsFile).route) := by
  subst first
  refine findSettings_tooLong allowed.plain ?_
  exact (FileTree.reach_eq_tooLong_iff (allowed_settingsFile allowed)).mpr overlong

/-! ## Files added -/

/-- No settings file lies below a file. -/
theorem not_hasFile_below {names : List String} {content : ByteArray}
    (h : FileTree.walk [] t names = .file content) :
    ¬ t.HasFile ((Path.mk names).resolved.child settingsFile) := by
  intro hbelow
  obtain ⟨-, hwalk⟩ := FileTree.walk_eq_file_iff.mp h
  obtain ⟨-, -, found, hfound⟩ := FileTree.hasFile_iff.mp hbelow
  cases (FileTree.walk_below_file hwalk settingsFile []).symm.trans hfound

/-- With files added, a search begins at the same folder; or at the one above it, if there is a file now
where nothing was. -/
theorem BeginsAt.of_keeps (h : BeginsAt t current start folder) (keeps : t.Keeps t') :
    BeginsAt t' current start folder ∨
      ∃ above last, BeginsAt t' current start above ∧ folder = above.child last ∧
        ¬ t'.HasFile (folder.child settingsFile) := by
  cases h with
  | file isFile => exact .inl (.file (keeps.leadsToFile isFile))
  | place noFile =>
    by_cases isFile : t'.LeadsToFile current start
    · obtain ⟨anchor, names⟩ := start
      rcases List.eq_nil_or_concat names with rfl | ⟨above, last, rfl⟩
      · exact .inl (.file isFile)
      · rw [List.concat_eq_append] at isFile ⊢
        have hpath : (Route.mk anchor (above ++ [last])).path current =
            ⟨(anchor.names current ++ above) ++ [last]⟩ := by
          rw [Route.path, List.append_assoc]
        have hparent : (Route.mk anchor (above ++ [last])).parent.path current =
            ⟨anchor.names current ++ above⟩ := by
          rw [Route.parent, List.dropLast_concat, Route.path]
        obtain ⟨-, -, content, hwalk⟩ := FileTree.leadsToFile_iff.mp isFile
        rw [hpath] at hwalk ⊢
        refine .inr ⟨(Path.mk (anchor.names current ++ above)).resolved, last, ?_,
          FileTree.resolved_eq_of_walk hwalk, not_hasFile_below hwalk⟩
        rw [← hparent]
        exact .file isFile
    · exact .inl (.place isFile)

/-- **Files added** in other folders make no difference. -/
theorem findSettings_of_adds (allowed : (start.path current).Allowed) (fits : start.Fits)
    (begins : BeginsAt t current start folder) (askable : (folder.child settingsFile).Fits)
    (added : t.Adds (fun p => ¬ Considered folder p) t') {found : Option Path}
    (nearest : NearestSettings t folder found) :
    findSettings (t'.system current) start = .ok found := by
  have forward : ".." ∉ folder.names := by
    cases begins <;> exact Path.forward_resolved _
  have hsame : ∀ p, Considered folder p → (t'.HasFile p ↔ t.HasFile p) := by
    rintro p ⟨names, more, above, rfl⟩
    refine added.hasFile_iff ?_ (not_not_intro ⟨names, more, above, rfl⟩)
    rw [above] at forward
    intro hmem
    rcases List.mem_append.mp hmem with hnames | hlast
    · exact forward (List.mem_append_left _ hnames)
    · exact absurd (List.mem_singleton.mp hlast) (by decide)
  have hnearest : NearestSettings t' folder found := nearest.congr hsame
  rcases begins.of_keeps added.keeps with hbegins | ⟨above, last, hbegins, rfl, hnone⟩
  · obtain ⟨found', hfound, hnearest'⟩ :=
      exists_nearest_of_fits allowed (hbegins.firstFolder_eq allowed fits) askable
    rw [hfound, hnearest.unique hnearest']
  · have habove : (above.child settingsFile).Fits :=
      askable.leave (List.cons_ne_nil _ _)
    obtain ⟨found', hfound, hnearest'⟩ :=
      exists_nearest_of_fits allowed (hbegins.firstFolder_eq allowed fits) habove
    rw [hfound, hnearest.unique (hnearest'.below hnone)]

end Searches

/-- **What comes of a search** from a place with allowed names, in a tree without links.

* If the place, as it is written, is not too long, and neither is the first settings file, then the search
  ends with the only nearest settings file, or with none if there is none. It is at least as near as each
  of those that are considered, and files added in other folders make no difference.
* If the first settings file is too long, the search fails.
* A place that is too long is taken for a file, whatever it is. -/
theorem findSettings_nearest (t : FileTree) (current : Path) {start : Route}
    (allowed : (start.path current).Allowed) :
    (start.Fits → ∀ folder, BeginsAt t current start folder → (folder.child settingsFile).Fits →
      ∃ found, findSettings (t.system current) start = .ok found ∧
        (∀ other, NearestSettings t folder other ↔ other = found) ∧
        (found = none ↔ ∀ p, Considered folder p → ¬ t.HasFile p) ∧
        (∀ names more, folder.names = names ++ more → t.HasFile ⟨names ++ [settingsFile]⟩ →
          ∃ inner more', folder.names = names ++ inner ++ more' ∧
            found = some ⟨names ++ inner ++ [settingsFile]⟩) ∧
        ∀ t', t.Adds (fun p => ¬ Considered folder p) t' →
          findSettings (t'.system current) start = .ok found) ∧
    (start.Fits → ∀ folder, BeginsAt t current start folder → ¬ (folder.child settingsFile).Fits →
      findSettings (t.system current) start = .error (.tooLong (folder.child settingsFile).route)) ∧
    (¬ start.Fits → ((start.parent.path current).resolved.child settingsFile).Fits →
      ∃ found, findSettings (t.system current) start = .ok found ∧
        NearestSettings t (start.parent.path current).resolved found) ∧
    (¬ start.Fits → ¬ ((start.parent.path current).resolved.child settingsFile).Fits →
      findSettings (t.system current) start =
        .error (.tooLong ((start.parent.path current).resolved.child settingsFile).route)) := by
  have hparent : ¬ start.Fits → firstFolder t current start = (start.parent.path current).resolved := by
    intro overlong
    rw [firstFolder,
      searchFolder_of_tooLong ((FileTree.reachFrom_eq_tooLong_iff allowed).mpr overlong)]
  refine ⟨fun fits folder begins askable => ?_, fun fits folder begins overlong => ?_,
    fun overlong askable => ?_, fun overlong overlong' => ?_⟩
  · obtain ⟨found, hfound, hnearest⟩ :=
      exists_nearest_of_fits allowed (begins.firstFolder_eq allowed fits) askable
    refine ⟨found, hfound, fun other => ⟨hnearest.unique, ?_⟩, hnearest.eq_none_iff,
      fun names more => hnearest.shadows, fun t' added => ?_⟩
    · rintro rfl
      exact hnearest
    · exact findSettings_of_adds allowed fits begins askable added hnearest
  · exact findSettings_of_not_fits allowed (begins.firstFolder_eq allowed fits) overlong
  · exact exists_nearest_of_fits allowed (hparent overlong) askable
  · exact findSettings_of_not_fits allowed (hparent overlong) overlong'

/-- A folder with a settings file. Below it are a folder of that name and a file. -/
def coveredTree : FileTree :=
  .folder [(settingsFile, .file "version = 1\n".toUTF8),
    ("inner", .folder [(settingsFile, .folder []), ("data", .file .empty)])]

/-- From the file, written from its folder, the settings file above that folder is found; the folder of
that name is passed over, and a settings file in another folder makes no difference. -/
theorem findSettings_nearest_coveredTree :
    findSettings (coveredTree.system ⟨["inner"]⟩) ⟨.current, ["..", "inner", "data"]⟩ =
        .ok (some ⟨[settingsFile]⟩) ∧
      findSettings ((coveredTree.insertFile ⟨["inner", "more", settingsFile]⟩ .empty).system ⟨["inner"]⟩)
        ⟨.current, ["..", "inner", "data"]⟩ = .ok (some ⟨[settingsFile]⟩) := by
  have allowed : ((Route.mk .current ["..", "inner", "data"]).path ⟨["inner"]⟩).Allowed := by
    unfold Path.Allowed
    decide
  have fits : (Route.mk .current ["..", "inner", "data"]).Fits := by
    unfold Route.Fits
    decide
  have begins : BeginsAt coveredTree ⟨["inner"]⟩ ⟨.current, ["..", "inner", "data"]⟩ ⟨["inner"]⟩ :=
    .file ⟨_, rfl⟩
  have askable : ((Path.mk ["inner"]).child settingsFile).Fits := by
    unfold Path.Fits
    decide
  have others : ¬ Considered ⟨["inner"]⟩ ⟨["inner", "more", settingsFile]⟩ := by
    rintro ⟨names, more, above, hpath⟩
    have hlength := congrArg List.length above
    have hlength' := congrArg List.length (Path.mk.inj hpath)
    simp only [List.length_append, List.length_cons, List.length_nil] at hlength hlength'
    omega
  obtain ⟨found, hfound, -, -, -, hadds⟩ :=
    (findSettings_nearest coveredTree ⟨["inner"]⟩ allowed).1 fits ⟨["inner"]⟩ begins askable
  have hroot : found = some ⟨[settingsFile]⟩ := Except.ok.inj (hfound.symm.trans rfl)
  subst hroot
  exact ⟨hfound, hadds _ (.file .none rfl others .empty)⟩

/-! ## Starts that are too long -/

/-- The text of a path has a byte for each name at least. -/
theorem Path.length_le_text (p : Path) : p.names.length ≤ p.text.utf8ByteSize := by
  have hslash : "/".utf8ByteSize = 1 := rfl
  have hsize : ∀ names : List String, names.length ≤ 1 + ("/".intercalate names).utf8ByteSize := by
    intro names
    induction names with
    | nil => exact Nat.zero_le _
    | cons name names ih =>
      cases names with
      | nil => exact Nat.le_add_right _ _
      | cons next names =>
        rw [← List.singleton_append,
          String.intercalate_append_of_ne_nil (List.cons_ne_nil _ _) (List.cons_ne_nil _ _),
          List.singleton_append, List.length_cons, String.utf8ByteSize_append,
          String.utf8ByteSize_append, hslash]
        omega
  rw [text, String.utf8ByteSize_append, hslash]
  exact hsize p.names

/-- A path of very many names does not fit, however short they are. -/
theorem Path.not_fits_of_length {p : Path} (long : maxPathBytes < p.names.length) : ¬ p.Fits :=
  Nat.not_le_of_lt (Nat.lt_of_lt_of_le long p.length_le_text)

/-- Two folders in each other, with a settings file in both. -/
def nestedTree : FileTree :=
  .folder [(settingsFile, .file "version = 1\n".toUTF8),
    ("inner", .folder [(settingsFile, .file "version = 1\n".toUTF8)])]

/-- A way to the outermost folder, with thousands of steps down to the inner one and back. -/
def windingStart : Path := ⟨(List.replicate 2048 ["inner", ".."]).flatten ++ ["inner", ".."]⟩

/-- A place thousands of names down. -/
def deepStart : Path := ⟨List.replicate 4100 "x"⟩

/-- The names on the winding way are allowed. -/
theorem allowed_windingStart : windingStart.Allowed := by
  have hstep : ∀ name ∈ ["inner", ".."], holdsNull name = false ∧ name.utf8ByteSize ≤ maxNameBytes := by
    decide
  intro name hname
  rcases List.mem_append.mp hname with hwinding | hend
  · obtain ⟨names, hnames, hmem⟩ := List.mem_flatten.mp hwinding
    rw [List.eq_of_mem_replicate hnames] at hmem
    exact hstep name hmem
  · exact hstep name hend

/-- But the way is too long. -/
theorem not_fits_windingStart : ¬ windingStart.Fits := by
  have hlength : ∀ n, (List.replicate n ["inner", ".."]).flatten.length = n * 2 := fun n => by simp
  refine Path.not_fits_of_length ?_
  rw [windingStart, List.length_append, hlength]
  decide

/-- The steps of the winding way take each other back. -/
theorem resolved_winding (n : Nat) (rest : List String) :
    (Path.mk ((List.replicate n ["inner", ".."]).flatten ++ rest)).resolved = (Path.mk rest).resolved := by
  have hfold : (List.replicate n ["inner", ".."]).flatten.foldl Path.step [] = [] := by
    induction n with
    | zero => rfl
    | succ n ih =>
      rw [List.replicate_succ, List.flatten_cons, List.foldl_append]
      exact ih
  rw [Path.resolved, List.foldl_append, hfold]
  rfl

/-- From the winding way, the settings file in the inner folder is found. -/
theorem findSettings_windingStart :
    findSettings (nestedTree.system .root) windingStart.route = .ok (some ⟨["inner", settingsFile]⟩) := by
  have hlong : nestedTree.reachFrom .root windingStart.route = .tooLong :=
    (FileTree.reach_eq_tooLong_iff allowed_windingStart).mpr not_fits_windingStart
  have hparent : windingStart.route.parent.path .root =
      ⟨(List.replicate 2048 ["inner", ".."]).flatten ++ ["inner"]⟩ := by
    rw [Path.route, Route.parent, windingStart, List.dropLast_append_of_ne_nil (List.cons_ne_nil _ _)]
    rfl
  have hfirst : firstFolder nestedTree .root windingStart.route = ⟨["inner"]⟩ := by
    rw [firstFolder, searchFolder_of_tooLong hlong, hparent]
    exact resolved_winding 2048 ["inner"]
  have hplain : (windingStart.route.path .root).names.any holdsNull = false := allowed_windingStart.plain
  rw [findSettings_eq hplain, hfirst]
  rfl

/-- The names on the deep way are allowed. -/
theorem allowed_deepStart : deepStart.Allowed := by
  intro name hname
  rw [List.eq_of_mem_replicate hname]
  decide

/-- Nothing comes of a search from deep below. -/
theorem findSettings_deepStart (t : FileTree) (found : Option Path) :
    findSettings (t.system .root) deepStart.route ≠ .ok found := by
  have hfits : ¬ deepStart.Fits := by
    refine Path.not_fits_of_length ?_
    rw [deepStart, List.length_replicate]
    decide
  have hlong : t.reachFrom .root deepStart.route = .tooLong :=
    (FileTree.reach_eq_tooLong_iff allowed_deepStart).mpr hfits
  have hparent : deepStart.route.parent.path .root = ⟨List.replicate 4099 "x"⟩ := by
    rw [Path.route, Route.parent, deepStart, List.dropLast_replicate]
    rfl
  have hforward : ".." ∉ List.replicate 4099 "x" := fun hmem =>
    absurd (List.eq_of_mem_replicate hmem) (by decide)
  have hfirst : firstFolder t .root deepStart.route = ⟨List.replicate 4099 "x"⟩ := by
    rw [firstFolder, searchFolder_of_tooLong hlong, hparent,
      Path.resolved_eq_self (p := ⟨List.replicate 4099 "x"⟩) hforward]
  have hchild : ¬ ((Path.mk (List.replicate 4099 "x")).child settingsFile).Fits := by
    refine Path.not_fits_of_length ?_
    rw [Path.child, List.length_append, List.length_replicate]
    decide
  have hallowed : (deepStart.route.path .root).Allowed := allowed_deepStart
  rw [findSettings_of_not_fits hallowed hfirst hchild]
  rintro ⟨⟩

/-- **A start that is too long as a whole** is not searched from as it should be: on the winding way, the
settings file in the inner folder is found, although the way leads to the outer one; and nothing comes of a
search from deep below. -/
theorem findSettings_overlongStart :
    windingStart.Allowed ∧ deepStart.Allowed ∧ BeginsAt nestedTree .root windingStart.route Path.root ∧
      NearestSettings nestedTree Path.root (some ⟨[settingsFile]⟩) ∧
      findSettings (nestedTree.system .root) windingStart.route = .ok (some ⟨["inner", settingsFile]⟩) ∧
      ∀ found, findSettings (nestedTree.system .root) deepStart.route ≠ .ok found := by
  have hroot : (windingStart.route.path .root).resolved = Path.root :=
    resolved_winding 2048 ["inner", ".."]
  have hbegins : BeginsAt nestedTree .root windingStart.route (windingStart.route.path .root).resolved :=
    .place fun hfile => not_fits_windingStart (FileTree.leadsToFile_iff.mp hfile).2.1
  rw [hroot] at hbegins
  exact ⟨allowed_windingStart, allowed_deepStart, hbegins, .here ⟨_, rfl⟩, findSettings_windingStart,
    findSettings_deepStart nestedTree⟩

end Reckoner
