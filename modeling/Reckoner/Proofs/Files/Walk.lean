import Reckoner.Files.Tree

/-! # Walks through file trees

What is found at a path is what a walk along its names comes to. A walk goes on from where its first part
comes to.

* **`FileTree.walk_down`** — one step of a walk.
* **`FileTree.walk_append`** — a walk in two parts.
* **`FileTree.LeadsToFile`, `FileTree.HasFile`** — a route, and a path, that leads to a file.
* **`Path.resolved_eq_self`** — a path without steps back. -/

namespace Reckoner

/-! ## Texts of paths -/

/-- A path has no shorter text when names are put in. -/
theorem utf8ByteSize_intercalate_le (names more : List String) {last : List String} (nonempty : last ≠ []) :
    ("/".intercalate (names ++ last)).utf8ByteSize ≤
      ("/".intercalate (names ++ more ++ last)).utf8ByteSize := by
  by_cases hmore : more = []
  · exact Nat.le_of_eq (by rw [hmore, List.append_nil])
  · by_cases hnames : names = []
    · rw [hnames, List.nil_append, List.nil_append, String.intercalate_append_of_ne_nil hmore nonempty,
        String.utf8ByteSize_append]
      exact Nat.le_add_left _ _
    · have hinner : names ++ more ≠ [] := List.append_ne_nil_of_left_ne_nil hnames more
      rw [String.intercalate_append_of_ne_nil hnames nonempty,
        String.intercalate_append_of_ne_nil hinner nonempty,
        String.intercalate_append_of_ne_nil hnames hmore]
      simp only [String.utf8ByteSize_append]
      omega

/-! ## Steps back -/

/-- Without its steps back, a path has no other names. -/
theorem mem_of_mem_resolved {p : Path} {name : String} (h : name ∈ p.resolved.names) :
    name ∈ p.names := by
  have hfold : ∀ (names above : List String), name ∈ names.foldl Path.step above →
      name ∈ above ∨ name ∈ names := by
    intro names
    induction names with
    | nil => exact fun above hmem => .inl hmem
    | cons n names ih =>
      intro above hmem
      rcases ih (Path.step above n) hmem with hstep | hnames
      · unfold Path.step at hstep
        split at hstep
        · exact .inl (List.mem_of_mem_tail hstep)
        · rcases List.mem_cons.mp hstep with rfl | habove
          · exact .inr (List.mem_cons_self ..)
          · exact .inl habove
      · exact .inr (List.mem_cons_of_mem n hnames)
  rcases hfold p.names [] (List.mem_reverse.mp h) with hnil | hnames
  · cases hnil
  · exact hnames

/-- A path without null characters stays so without its steps back. -/
@[simp] theorem any_holdsNull_resolved {p : Path} (h : p.names.any holdsNull = false) :
    p.resolved.names.any holdsNull = false := by
  rw [List.any_eq_false] at h ⊢
  exact fun name hname => h name (mem_of_mem_resolved hname)

/-- A path without a null character is not refused. -/
@[simp] theorem resolve_eq_ok {p : Path} (h : p.names.any holdsNull = false) :
    p.resolve = .ok p.resolved := by
  rw [Path.resolve, h, if_neg Bool.false_ne_true]

/-- A path without steps back stays as it is. -/
@[simp] theorem Path.resolved_eq_self {p : Path} (forward : ".." ∉ p.names) : p.resolved = p := by
  have hfold : ∀ names above : List String, ".." ∉ names →
      names.foldl step above = names.reverse ++ above := by
    intro names
    induction names with
    | nil => exact fun above _ => rfl
    | cons name names ih =>
      intro above hforward
      rw [List.mem_cons, not_or] at hforward
      obtain ⟨hname, hnames⟩ := hforward
      rw [List.foldl_cons, step, if_neg (Ne.symm hname), ih _ hnames, List.reverse_cons,
        List.append_assoc]
      rfl
  obtain ⟨names⟩ := p
  rw [resolved, hfold names [] forward, List.append_nil, List.reverse_reverse]

/-! ## Walks -/

namespace FileTree

/-- One step down. -/
theorem walk_down (above : List FileTree) (entries : List (String × FileTree)) {name : String}
    (down : name ≠ "..") (rest : List String) :
    walk above (.folder entries) (name :: rest) =
      if maxNameBytes < name.utf8ByteSize then .tooLong
      else
        match entries.lookup name with
        | some next => walk (.folder entries :: above) next rest
        | none => .missing := by
  rw [walk.eq_def]
  exact if_neg down

/-- **A walk goes on from where it comes to**, or it has stopped before the rest of the names matter. -/
theorem walk_append (above : List FileTree) (place : FileTree) (names : List String) :
    (∃ above' place', ∀ rest, walk above place (names ++ rest) = walk above' place' rest) ∨
      ∃ stop, (stop = .missing ∨ stop = .blocked ∨ stop = .tooLong) ∧
        ∀ rest, walk above place (names ++ rest) = stop := by
  induction names generalizing above place with
  | nil => exact .inl ⟨above, place, fun rest => rfl⟩
  | cons name names ih =>
    cases place with
    | file content => exact .inr ⟨.blocked, .inr (.inl rfl), fun rest => rfl⟩
    | folder entries =>
      by_cases hback : name = ".."
      · subst hback
        cases above with
        | nil => exact ih [] (.folder entries)
        | cons up above => exact ih above up
      · simp only [List.cons_append, walk_down above entries hback]
        by_cases hlong : maxNameBytes < name.utf8ByteSize
        · simp only [if_pos hlong]
          exact .inr ⟨.tooLong, .inr (.inr rfl), fun rest => rfl⟩
        · simp only [if_neg hlong]
          cases entries.lookup name with
          | none => exact .inr ⟨.missing, .inl rfl, fun rest => rfl⟩
          | some next => exact ih (.folder entries :: above) next

/-- A walk that ends in a folder goes on from there. -/
theorem exists_of_walk_eq_folder {above : List FileTree} {place : FileTree} {names : List String}
    (h : walk above place names = .folder) :
    ∃ above' entries, ∀ rest, walk above place (names ++ rest) = walk above' (.folder entries) rest := by
  rcases walk_append above place names with ⟨above', place', hwalk⟩ | ⟨stop, hstop, hwalk⟩
  · have hend := hwalk []
    rw [List.append_nil, h] at hend
    cases place' with
    | file content => cases hend
    | folder entries => exact ⟨above', entries, hwalk⟩
  · have hend := hwalk []
    rw [List.append_nil, h] at hend
    subst hend
    rcases hstop with hstop | hstop | hstop <;> cases hstop

/-- A name that is too long is no step back. -/
theorem ne_back_of_long {name : String} (long : maxNameBytes < name.utf8ByteSize) : name ≠ ".." := by
  rintro rfl
  exact absurd long (by decide)

/-- A name that is too long stops the walk from a folder. -/
@[simp] theorem walk_overlong {above : List FileTree} {entries : List (String × FileTree)} {name : String}
    (long : maxNameBytes < name.utf8ByteSize) (rest : List String) :
    walk above (.folder entries) (name :: rest) = .tooLong := by
  rw [walk_down above entries (ne_back_of_long long), if_pos long]

/-- What is found at a route without null characters. -/
theorem reachFrom_of_plain {t : FileTree} {current : Path} {r : Route}
    (plain : (r.path current).names.any holdsNull = false) :
    t.reachFrom current r =
      if maxPathBytes < r.text.utf8ByteSize then .tooLong else walk [] t (r.path current).names := by
  rw [reachFrom, plain, if_neg Bool.false_ne_true]

/-- What is found at a path without null characters. -/
theorem reach_of_plain {t : FileTree} {p : Path} (plain : p.names.any holdsNull = false) :
    t.reach p = if maxPathBytes < p.text.utf8ByteSize then .tooLong else walk [] t p.names :=
  reachFrom_of_plain (r := p.route) plain

/-- The current folder does not matter to the route of a path. -/
@[simp] theorem reachFrom_route (t : FileTree) (current p : Path) :
    t.reachFrom current p.route = t.reach p := rfl

/-- Nor does it matter whether there is a file. -/
@[simp] theorem isFileFrom_route (t : FileTree) (current p : Path) :
    t.isFileFrom current p.route = t.isFile p := rfl

end FileTree

/-! ## What is found at a path -/

/-- Only a path with a null character is malformed. -/
theorem reach_ne_malformed {t : FileTree} {p : Path} (h : p.names.any holdsNull = false) :
    t.reach p ≠ .malformed := by
  have hwalk : ∀ above place names, FileTree.walk above place names ≠ .malformed := by
    intro above place names
    fun_induction FileTree.walk above place names with
    | case1 => simp
    | case2 => simp
    | case3 => simp
    | case4 _ _ ih => exact ih
    | case5 _ _ _ _ ih => exact ih
    | case6 => simp
    | case7 _ _ _ _ _ _ _ _ ih => exact ih
    | case8 => simp
  rw [FileTree.reach_of_plain h]
  split
  · simp
  · exact hwalk _ _ _

/-- A route **leads to a file**. -/
def FileTree.LeadsToFile (t : FileTree) (current : Path) (r : Route) : Prop :=
  ∃ content, t.reachFrom current r = .file content

/-- A path **leads to a file**. -/
def FileTree.HasFile (t : FileTree) (p : Path) : Prop := ∃ content, t.reach p = .file content

section Questions

variable {t : FileTree} {current : Path} {r : Route}

/-- A route that is not too long can be asked about. -/
theorem isFileFrom_eq_ok (h : t.reachFrom current r ≠ .tooLong) :
    ∃ found, t.isFileFrom current r = .ok found := by
  unfold FileTree.isFileFrom
  split
  · exact ⟨true, rfl⟩
  · next hlong => exact absurd hlong h
  · exact ⟨false, rfl⟩

/-- The answer is yes where the route leads to a file. -/
theorem leadsToFile_of_isFileFrom (h : t.isFileFrom current r = .ok true) :
    t.LeadsToFile current r := by
  unfold FileTree.isFileFrom at h
  split at h
  · next content hcontent => exact ⟨content, hcontent⟩
  · cases h
  · cases h

/-- The answer is no where it does not. -/
theorem not_leadsToFile_of_isFileFrom (h : t.isFileFrom current r = .ok false) :
    ¬ t.LeadsToFile current r := by
  rintro ⟨content, hcontent⟩
  rw [FileTree.isFileFrom, hcontent] at h
  cases h

variable {p : Path}

/-- A path that is not too long can be asked about. -/
theorem isFile_eq_ok (h : t.reach p ≠ .tooLong) : ∃ found, t.isFile p = .ok found :=
  isFileFrom_eq_ok h

/-- The answer is yes where the path leads to a file. -/
theorem hasFile_of_isFile (h : t.isFile p = .ok true) : t.HasFile p := leadsToFile_of_isFileFrom h

/-- The answer is no where it does not. -/
theorem not_hasFile_of_isFile (h : t.isFile p = .ok false) : ¬ t.HasFile p :=
  not_leadsToFile_of_isFileFrom h

end Questions

end Reckoner
