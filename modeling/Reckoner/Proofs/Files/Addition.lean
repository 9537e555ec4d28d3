import Reckoner.Proofs.Files.Resolution

/-! # Adding files

A file that is added to a tree where nothing was changes nothing else: the files that are there stay, and no
other file appears.

* **`FileTree.Keeps`** — a tree has the files and folders of another one.
* **`FileTree.Survives`, `FileTree.walk_insertAt`** — what walks find in a tree with a file added.
* **`FileTree.Adds`** — a tree with files of some kind added. -/

namespace Reckoner

namespace FileTree

/-! ## Keeping files -/

/-- A tree **keeps** the files and folders of another one. -/
structure Keeps (t t' : FileTree) : Prop where
  file {names : List String} {content : ByteArray} (forward : ".." ∉ names) :
    walk [] t names = .file content → walk [] t' names = .file content
  folder {names : List String} (forward : ".." ∉ names) :
    walk [] t names = .folder → walk [] t' names = .folder

/-- A tree keeps its own files. -/
theorem Keeps.refl (t : FileTree) : Keeps t t := ⟨fun _ h => h, fun _ h => h⟩

/-- Files are kept from tree to tree. -/
theorem Keeps.trans {t₁ t₂ t₃ : FileTree} (h : Keeps t₁ t₂) (h' : Keeps t₂ t₃) : Keeps t₁ t₃ :=
  ⟨fun forward hfile => h'.file forward (h.file forward hfile),
    fun forward hfolder => h'.folder forward (h.folder forward hfolder)⟩

/-- **What is kept is found** on the same routes, with their steps back. -/
theorem Keeps.leadsToFile {t t' : FileTree} (h : Keeps t t') {current : Path} {r : Route}
    (file : t.LeadsToFile current r) : t'.LeadsToFile current r := by
  obtain ⟨hplain, hfits, content, hwalk⟩ := leadsToFile_iff.mp file
  obtain ⟨hway, hend⟩ := walk_eq_file_iff.mp hwalk
  refine leadsToFile_iff.mpr ⟨hplain, hfits, content, walk_eq_file_iff.mpr ⟨?_, ?_⟩⟩
  · exact fun first next rest heq => h.folder (Path.forward_resolved _) (hway first next rest heq)
  · exact h.file (Path.forward_resolved _) hend

/-! ## A file added -/

/-- A name is looked up in the first entry and then in the others. -/
theorem lookup_cons_eq (n key : String) (t : FileTree) (entries : List (String × FileTree)) :
    ((key, t) :: entries).lookup n = if n = key then some t else entries.lookup n := by
  rw [List.lookup_cons]
  by_cases hn : n = key
  · rw [if_pos hn, beq_iff_eq.mpr hn]
  · rw [if_neg hn, beq_eq_false_iff_ne.mpr hn]

/-- **An entry that is put in place is found there**, and all others as before. -/
@[simp] theorem lookup_putEntry (name : String) (t : FileTree) (entries : List (String × FileTree))
    (n : String) :
    (putEntry name t entries).lookup n = if n = name then some t else entries.lookup n := by
  induction entries with
  | nil => rw [putEntry, lookup_cons_eq]
  | cons entry entries ih =>
    obtain ⟨key, old⟩ := entry
    rw [putEntry]
    by_cases hkey : key = name
    · rw [if_pos hkey, lookup_cons_eq, lookup_cons_eq, hkey]
      split <;> rfl
    · rw [if_neg hkey, lookup_cons_eq, lookup_cons_eq, ih]
      by_cases hn : n = key
      · rw [if_pos hn, if_pos hn, if_neg (hn ▸ hkey)]
      · rw [if_neg hn, if_neg hn]

variable {place : FileTree} {names path : List String}

/-- Without steps back, the folders above do not matter. -/
@[simp] theorem walk_forward (forward : ".." ∉ path) (above above' : List FileTree) :
    walk above place path = walk above' place path := by
  induction path generalizing place above above' with
  | nil => cases place <;> rfl
  | cons name path ih =>
    obtain ⟨hname, hpath⟩ := not_or.mp (mt List.mem_cons.mpr forward)
    cases place with
    | file content => rfl
    | folder entries =>
      rw [walk_down above entries (Ne.symm hname), walk_down above' entries (Ne.symm hname)]
      cases entries.lookup name with
      | none => rfl
      | some next =>
        dsimp only
        rw [ih hpath]

/-- Nothing is found in an empty folder. -/
@[simp] theorem walk_empty {name : String} (down : name ≠ "..") (above : List FileTree)
    (rest : List String) :
    walk above empty (name :: rest) =
      if maxNameBytes < name.utf8ByteSize then .tooLong else .missing :=
  walk_down above [] down rest

/-- There is no file in an empty folder. -/
theorem walk_empty_ne_file {above : List FileTree} {content : ByteArray} (forward : ".." ∉ path) :
    walk above empty path ≠ .file content := by
  cases path with
  | nil => rintro ⟨⟩
  | cons name rest =>
    rw [walk_empty fun h => forward (h ▸ List.mem_cons_self ..)]
    split <;> rintro ⟨⟩

/-- What is found **survives**: a file is the same, a folder is still one, and no file is new. -/
structure Survives (found found' : Reach) : Prop where
  file_iff (content : ByteArray) : found' = .file content ↔ found = .file content
  folder : found = .folder → found' = .folder

/-- What is found survives where nothing is added. -/
theorem Survives.refl (found : Reach) : Survives found found := ⟨fun _ => Iff.rfl, id⟩

/-- Where nothing is found, there must be no file afterwards. -/
theorem survives_of_nothing {found found' : Reach} (noFile : ∀ content, found ≠ .file content)
    (noFolder : found ≠ .folder) (still : ∀ content, found' ≠ .file content) : Survives found found' :=
  ⟨fun content => iff_of_false (still content) (noFile content), fun h => absurd h noFolder⟩

/-- **A file that is added** where nothing was, or in place of a folder that has just been made, changes
nothing on other ways. -/
theorem walk_insertAt (content : ByteArray)
    (free : place = empty ∨ ∃ above, walk above place names = .missing) (forward : ".." ∉ path)
    (other : path ≠ names) (above above' : List FileTree) :
    Survives (walk above place path) (walk above' (insertAt (.file content) names place) path) := by
  induction names generalizing place path above above' with
  | nil =>
    rcases free with rfl | ⟨above'', hmissing⟩
    · cases path with
      | nil => exact absurd rfl other
      | cons n rest =>
        have hblocked : walk above' (insertAt (.file content) [] empty) (n :: rest) = .blocked := rfl
        rw [hblocked, walk_empty fun h => forward (h ▸ List.mem_cons_self ..)]
        refine survives_of_nothing ?_ ?_ (by simp) <;> split <;> simp
    · cases place <;> cases hmissing
  | cons name names ih =>
    cases place with
    | file content => rcases free with hempty | ⟨_, hmissing⟩ <;> contradiction
    | folder entries =>
      cases path with
      | nil => exact .refl .folder
      | cons n rest =>
        obtain ⟨hn, hrest⟩ := not_or.mp (mt List.mem_cons.mpr forward)
        rw [insertAt, walk_down above entries (Ne.symm hn), walk_down above' _ (Ne.symm hn),
          lookup_putEntry]
        by_cases hlong : maxNameBytes < n.utf8ByteSize
        · rw [if_pos hlong, if_pos hlong]
          exact .refl .tooLong
        · rw [if_neg hlong, if_neg hlong]
          by_cases hname : n = name
          · subst hname
            rw [if_pos rfl]
            have hother : rest ≠ names := fun h => other (h ▸ rfl)
            cases hentry : entries.lookup n with
            | none =>
              -- the folder that is made for the file holds nothing else
              have hmade := ih (.inl rfl) hrest hother (.folder entries :: above)
                (.folder (putEntry n (insertAt (.file content) names empty) entries) :: above')
              refine survives_of_nothing (by simp) (by simp) fun found h => ?_
              exact absurd ((hmade.file_iff found).mp h) (walk_empty_ne_file hrest)
            | some next =>
              refine ih ?_ hrest hother _ _
              rcases free with hempty | ⟨above'', hmissing⟩
              · cases hempty
                cases hentry
              · rw [walk_down above'' entries (Ne.symm hn), if_neg hlong, hentry] at hmissing
                exact .inr ⟨_, hmissing⟩
          · -- another entry is as it was, below a folder that does not matter
            rw [if_neg hname]
            cases entries.lookup n with
            | none => exact .refl .missing
            | some next =>
              dsimp only
              rw [walk_forward hrest (.folder (putEntry name _ entries) :: above')
                (.folder entries :: above)]
              exact .refl _

variable {t : FileTree} {p q : Path}

/-- Where nothing is found, the walk has come to nothing. -/
@[simp] theorem walk_of_missing (free : t.reach p = .missing) : walk [] t p.names = .missing := by
  rw [reach, reachFrom] at free
  split at free
  · cases free
  · split at free
    · cases free
    · exact free

/-- A tree **keeps what it holds** when a file is added where nothing was. -/
theorem keeps_insertFile (free : t.reach p = .missing) (content : ByteArray) :
    Keeps t (t.insertFile p content) := by
  have hmissing := walk_of_missing free
  have hsame := fun {names : List String} (forward : ".." ∉ names) (other : names ≠ p.names) =>
    walk_insertAt content (.inr ⟨[], hmissing⟩) forward other [] []
  constructor
  · intro names found forward hfile
    refine ((hsame forward ?_).file_iff found).mpr hfile
    rintro rfl
    cases hmissing.symm.trans hfile
  · intro names forward hfolder
    refine (hsame forward ?_).folder hfolder
    rintro rfl
    cases hmissing.symm.trans hfolder

/-- **No other file appears** when a file is added where nothing was. -/
theorem hasFile_insertFile (free : t.reach p = .missing) (content : ByteArray)
    (forward : ".." ∉ q.names) (other : q ≠ p) :
    (t.insertFile p content).HasFile q ↔ t.HasFile q := by
  have hother : q.names ≠ p.names := fun h => other (congrArg Path.mk h)
  have hsame := walk_insertAt content (.inr ⟨[], walk_of_missing free⟩) forward hother [] []
  rw [hasFile_iff, hasFile_iff, insertFile]
  simp only [hsame.file_iff]

/-- Files are **added** to a tree, each at a path where nothing was. -/
inductive Adds (kind : Path → Prop) (t : FileTree) : FileTree → Prop
  | none : Adds kind t t
  | file {t' : FileTree} (before : Adds kind t t') {path : Path} (free : t'.reach path = .missing)
      (ofKind : kind path) (content : ByteArray) : Adds kind t (t'.insertFile path content)

/-- Added files take none away. -/
theorem Adds.keeps {kind : Path → Prop} {t t' : FileTree} (h : Adds kind t t') : Keeps t t' := by
  induction h with
  | none => exact .refl t
  | file _ free _ content ih => exact ih.trans (keeps_insertFile free content)

/-- Files of one kind that are added leave those of another kind as they are. -/
theorem Adds.hasFile_iff {kind : Path → Prop} {t t' : FileTree} (h : Adds kind t t') {q : Path}
    (forward : ".." ∉ q.names) (other : ¬ kind q) : t'.HasFile q ↔ t.HasFile q := by
  induction h with
  | none => exact Iff.rfl
  | @file t' _ path free ofKind content ih =>
    have hne : q ≠ path := fun h => other (h ▸ ofKind)
    exact (hasFile_insertFile free content forward hne).trans ih

end FileTree

end Reckoner
