import Reckoner.Proofs.Files.Walk

/-! # Where steps back lead

A walk with steps back goes down and up again through folders. It comes to a file if and only if the path
without its steps back leads to that file, and everything on the way is a folder.

* **`FileTree.Stands`** — where a walk down stands.
* **`FileTree.walk_eq_file_iff`** — a walk to a file, without its steps back.
* **`Path.Allowed`, `Path.Fits`, `Route.Fits`** — the names of a path are allowed, and its text, or that
  of a route, is not too long.
* **`FileTree.reachFrom_eq_tooLong_iff`** — with allowed names, a route is too long only as a whole. -/

namespace Reckoner

namespace FileTree

/-! ## Walks down -/

/-- A walk down from the top of a tree **stands** at a place: along names, the deepest first, and below
folders, the nearest first. -/
inductive Stands (t : FileTree) : List String → List FileTree → FileTree → Prop
  | top : Stands t [] [] t
  | down {names : List String} {above : List FileTree} {entries : List (String × FileTree)}
      {name : String} {next : FileTree} (inner : Stands t names above (.folder entries))
      (forward : name ≠ "..") (short : name.utf8ByteSize ≤ maxNameBytes)
      (entry : entries.lookup name = some next) :
      Stands t (name :: names) (.folder entries :: above) next

variable {t : FileTree} {names : List String} {above : List FileTree} {place : FileTree}
  {content : ByteArray}

/-- A walk goes on from where it stands. -/
theorem Stands.walk_eq (h : Stands t names above place) (rest : List String) :
    walk [] t (names.reverse ++ rest) = walk above place rest := by
  induction h generalizing rest with
  | top => rfl
  | @down names above entries name next _ forward short entry ih =>
    rw [List.reverse_cons, List.append_assoc, ih, List.singleton_append, walk_down above entries forward,
      if_neg (Nat.not_lt_of_le short), entry]

/-- Where a walk stands, the path down leads to. -/
theorem Stands.walk_reverse (h : Stands t names above place) :
    walk [] t names.reverse = walk above place [] := by
  rw [← h.walk_eq [], List.append_nil]

/-- Nothing lies below a file. -/
@[simp] theorem walk_below_file (h : walk above place names = .file content) (name : String)
    (rest : List String) : walk above place (names ++ name :: rest) = .blocked := by
  rcases walk_append above place names with ⟨above', place', hwalk⟩ | ⟨stop, hstop, hwalk⟩
  · have hend := hwalk []
    rw [List.append_nil, h] at hend
    cases place' with
    | file content => exact hwalk _
    | folder entries => cases hend
  · have hend := hwalk []
    rw [List.append_nil, h] at hend
    subst hend
    rcases hstop with hstop | hstop | hstop <;> cases hstop

/-! ## Walks back -/

/-- The places on the way of a walk are where it begins, and those on the way after its first step. -/
theorem forall_way_cons {p : List String → Prop} {name : String} {more : List String} :
    (∀ first next rest, name :: more = first ++ next :: rest → p (first.foldl Path.step names)) ↔
      p names ∧ ∀ first next rest, more = first ++ next :: rest →
        p (first.foldl Path.step (Path.step names name)) := by
  constructor
  · intro h
    refine ⟨h [] name more rfl, fun first next rest heq => ?_⟩
    exact h (name :: first) next rest (by rw [heq, List.cons_append])
  · rintro ⟨hbegin, hafter⟩ first next rest heq
    cases first with
    | nil => exact hbegin
    | cons head first =>
      obtain ⟨rfl, hmore⟩ := List.cons.inj heq
      exact hafter first next rest hmore

/-- A walk from where another one stands comes to a file if and only if it goes through folders, and the
path down leads to that file. -/
theorem Stands.walk_eq_file_iff (h : Stands t names above place) (more : List String) :
    walk above place more = .file content ↔
      (∀ first next rest, more = first ++ next :: rest →
        walk [] t (first.foldl Path.step names).reverse = .folder) ∧
        walk [] t (more.foldl Path.step names).reverse = .file content := by
  induction more generalizing names above place with
  | nil =>
    rw [List.foldl_nil, h.walk_reverse]
    refine ⟨fun hfile => ⟨fun first next rest hnil => ?_, hfile⟩, And.right⟩
    exact absurd hnil.symm (List.append_ne_nil_of_right_ne_nil _ (List.cons_ne_nil _ _))
  | cons name more ih =>
    rw [forall_way_cons (p := fun names => walk [] t names.reverse = .folder), List.foldl_cons,
      h.walk_reverse]
    cases place with
    | file content => exact ⟨fun hfile => (by cases hfile), fun hway => (by cases hway.1.1)⟩
    | folder entries =>
      have hbegin : walk above (.folder entries) [] = .folder := by rw [walk]
      rw [and_iff_right hbegin]
      by_cases hback : name = ".."
      · subst hback
        cases h with
        | top => exact ih .top
        | down inner _ _ _ => exact ih inner
      · rw [Path.step, if_neg hback]
        have hstep := h.walk_eq [name]
        rw [← List.reverse_cons, walk_down above entries hback] at hstep
        rw [walk_down above entries hback]
        -- a walk that stops at this step has nothing further down
        have hstop : ∀ stop, walk [] t (name :: names).reverse = stop → stop ≠ .folder →
            stop ≠ .file content →
            ¬ ((∀ first next rest, more = first ++ next :: rest →
              walk [] t (first.foldl Path.step (name :: names)).reverse = .folder) ∧
              walk [] t (more.foldl Path.step (name :: names)).reverse = .file content) := by
          rintro stop rfl hfolder hfile ⟨hway, hend⟩
          cases more with
          | nil => exact hfile hend
          | cons next rest => exact hfolder (hway [] next rest rfl)
        by_cases hlong : maxNameBytes < name.utf8ByteSize
        · rw [if_pos hlong] at hstep ⊢
          have hno := hstop _ hstep (by simp) (by simp)
          exact ⟨fun hfile => (by cases hfile), fun hway => absurd hway hno⟩
        · rw [if_neg hlong] at hstep ⊢
          cases hentry : entries.lookup name with
          | none =>
            rw [hentry] at hstep
            have hno := hstop _ hstep (by simp) (by simp)
            exact ⟨fun hfile => (by cases hfile), fun hway => absurd hway hno⟩
          | some next => exact ih (h.down hback (Nat.le_of_not_lt hlong) hentry)

/-- **A walk comes to a file** if and only if it goes through folders, and the path without its steps back
leads to that file. -/
theorem walk_eq_file_iff : walk [] t names = .file content ↔
    (∀ first next rest, names = first ++ next :: rest →
      walk [] t (Path.mk first).resolved.names = .folder) ∧
      walk [] t (Path.mk names).resolved.names = .file content :=
  Stands.walk_eq_file_iff .top names

/-- A walk to a file does not end with a step back. -/
theorem ne_back_of_walk {last : String} (h : walk [] t (names ++ [last]) = .file content) :
    last ≠ ".." := by
  rintro rfl
  obtain ⟨hway, hend⟩ := walk_eq_file_iff.mp h
  have hfolder : walk [] t (Path.mk names).resolved.names = .folder := hway names ".." [] rfl
  rw [Path.resolved, List.foldl_append] at hend
  rw [Path.resolved] at hfolder
  dsimp only at hend hfolder
  cases hnames : names.foldl Path.step [] with
  | nil =>
    rw [hnames] at hend hfolder
    cases hend.symm.trans hfolder
  | cons name above =>
    rw [hnames] at hend hfolder
    rw [List.reverse_cons] at hfolder
    have hbelow : walk [] t above.reverse = .file content := hend
    cases (walk_below_file hbelow name []).symm.trans hfolder

/-- No walk along names that are short enough is too long. -/
theorem walk_ne_tooLong (short : ∀ name ∈ names, name.utf8ByteSize ≤ maxNameBytes) :
    walk above place names ≠ .tooLong := by
  induction names generalizing above place with
  | nil => cases place <;> rintro ⟨⟩
  | cons name names ih =>
    obtain ⟨hname, hnames⟩ := List.forall_mem_cons.mp short
    cases place with
    | file content => rintro ⟨⟩
    | folder entries =>
      by_cases hback : name = ".."
      · subst hback
        cases above with
        | nil => exact ih hnames
        | cons up above => exact ih hnames
      · rw [walk_down above entries hback, if_neg (Nat.not_lt_of_le hname)]
        cases entries.lookup name with
        | none => rintro ⟨⟩
        | some next => exact ih hnames

end FileTree

/-! ## Paths that can be asked about -/

namespace Path

/-- A path is **allowed** if each of its names is: it holds no null character, and it is not too long. -/
def Allowed (p : Path) : Prop :=
  ∀ name ∈ p.names, holdsNull name = false ∧ name.utf8ByteSize ≤ maxNameBytes

/-- A path **fits** if its text is not too long. -/
def Fits (p : Path) : Prop := p.text.utf8ByteSize ≤ maxPathBytes

variable {p : Path}

/-- Allowed names hold no null character. -/
@[simp] theorem Allowed.plain (h : p.Allowed) : p.names.any holdsNull = false :=
  List.any_eq_false.mpr fun name hname => Bool.not_eq_true _ ▸ (h name hname).1

/-- An allowed path is allowed without its steps back. -/
theorem Allowed.resolved (h : p.Allowed) : p.resolved.Allowed :=
  fun name hname => h name (mem_of_mem_resolved hname)

/-- And one name further if that name is allowed. -/
theorem Allowed.child (h : p.Allowed) {name : String} (plain : holdsNull name = false)
    (short : name.utf8ByteSize ≤ maxNameBytes) : (p.child name).Allowed := by
  intro n hn
  rcases List.mem_append.mp hn with hn | hn
  · exact h n hn
  · rw [List.mem_singleton.mp hn]
    exact ⟨plain, short⟩

/-- No step back is left. -/
theorem forward_resolved (p : Path) : ".." ∉ p.resolved.names := by
  have hfold : ∀ names above : List String, ".." ∉ above → ".." ∉ names.foldl step above := by
    intro names
    induction names with
    | nil => exact fun above habove => habove
    | cons name names ih =>
      intro above habove
      refine ih (step above name) ?_
      unfold step
      split
      · exact fun hmem => habove (List.mem_of_mem_tail hmem)
      · next hdown => exact List.not_mem_cons_of_ne_of_not_mem (Ne.symm hdown) habove
  rw [resolved, List.mem_reverse]
  exact hfold p.names [] List.not_mem_nil

/-- A path that fits does so with names left out. -/
theorem Fits.leave {names more last : List String} (h : (Path.mk (names ++ more ++ last)).Fits)
    (nonempty : last ≠ []) : (Path.mk (names ++ last)).Fits := by
  have hsize := utf8ByteSize_intercalate_le names more nonempty
  rw [Fits, text, String.utf8ByteSize_append] at h ⊢
  exact Nat.le_trans (Nat.add_le_add_left hsize _) h

end Path

/-- The path of a route without its last name begins as the path of the route does. -/
theorem Route.names_parent_path {r : Route} {current : Path} {name : String}
    (h : name ∈ (r.parent.path current).names) : name ∈ (r.path current).names := by
  rcases List.mem_append.mp h with hanchor | hnames
  · exact List.mem_append_left _ hanchor
  · exact List.mem_append_right _ ((List.dropLast_sublist _).subset hnames)

/-- A route without its last name has allowed names if the route has. -/
theorem Route.allowed_parent {r : Route} {current : Path} (h : (r.path current).Allowed) :
    (r.parent.path current).Allowed :=
  fun name hname => h name (names_parent_path hname)

/-- A route without its last name has no null character if the route has none. -/
theorem Route.any_holdsNull_parent {r : Route} {current : Path}
    (h : (r.path current).names.any holdsNull = false) :
    (r.parent.path current).names.any holdsNull = false := by
  rw [List.any_eq_false] at h ⊢
  exact fun name hname => h name (names_parent_path hname)

/-- A route **fits** if its text is not too long. -/
def Route.Fits (r : Route) : Prop := r.text.utf8ByteSize ≤ maxPathBytes

namespace FileTree

variable {t : FileTree} {p current : Path} {r : Route}

/-- **A route with allowed names is too long** only as a whole. -/
theorem reachFrom_eq_tooLong_iff (allowed : (r.path current).Allowed) :
    t.reachFrom current r = .tooLong ↔ ¬ r.Fits := by
  rw [reachFrom_of_plain allowed.plain, Route.Fits, Nat.not_le]
  split
  · next hlong => exact iff_of_true rfl hlong
  · next hshort =>
    exact iff_of_false (walk_ne_tooLong fun name hname => (allowed name hname).2) hshort

/-- So is an allowed path. -/
theorem reach_eq_tooLong_iff (allowed : p.Allowed) : t.reach p = .tooLong ↔ ¬ p.Fits :=
  reachFrom_eq_tooLong_iff (r := p.route) allowed

/-- The routes to files are those along which walks come to one. -/
theorem leadsToFile_iff : t.LeadsToFile current r ↔
    (r.path current).names.any holdsNull = false ∧ r.Fits ∧
      ∃ content, walk [] t (r.path current).names = .file content := by
  rw [LeadsToFile, reachFrom, Route.Fits, ← Nat.not_lt]
  split
  · next hnull => simp [hnull]
  · next hplain =>
    split
    · next hlong => simp [hlong]
    · next hfits => simp [hplain, hfits]

/-- The files are where walks come to one. -/
theorem hasFile_iff : t.HasFile p ↔
    p.names.any holdsNull = false ∧ p.Fits ∧ ∃ content, walk [] t p.names = .file content :=
  leadsToFile_iff (r := p.route)

/-- The folder of a file is the folder that the path without its steps back is in. -/
theorem resolved_eq_of_walk {names : List String} {last : String} {content : ByteArray}
    (h : walk [] t (names ++ [last]) = .file content) :
    (Path.mk (names ++ [last])).resolved = (Path.mk names).resolved.child last := by
  rw [Path.resolved, List.foldl_append, List.foldl_cons, List.foldl_nil, Path.step,
    if_neg (ne_back_of_walk h), List.reverse_cons]
  rfl

end FileTree

end Reckoner
