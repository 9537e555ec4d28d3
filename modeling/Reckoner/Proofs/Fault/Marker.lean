import Reckoner.Fault.Report

/-! # The marked line

A marked message shows one line of a text and a marker under it. This file says which line that is and where
the marker stands, without the way in which they are found.

* **`LineAround`** — the line of a text that a position is in: the longest stretch around it without a line
  break.
* **`Marks`** — a marker under a line: as much padding as there are characters before the span, with the
  tabs among them, and carets and tildes after it.
* **`markedMessage_lines`** — the line and the marker of a marked message.
* **`splitOn_joinLines`** — texts without line breaks are the lines of what they are joined to. -/

namespace Reckoner

/-! ## Lines -/

/-- The **line around a position** of a text, between what stands before and after it. -/
structure LineAround (text : List Char) (offset : Nat) (before line after : List Char) : Prop where
  split : text = before ++ line ++ after
  /-- The line begins with the text or after a line break. -/
  begins : before = [] ∨ ∃ earlier, before = earlier ++ ['\n']
  /-- The line ends with the text or before a line break. -/
  ends : after = [] ∨ ∃ later, after = '\n' :: later
  unbroken : '\n' ∉ line
  /-- The position is in the line or right after it. -/
  around : before.length ≤ offset ∧ offset ≤ before.length + line.length

/-- What stands before the first line break holds none. -/
@[simp] theorem not_mem_takeWhile (text : List Char) : '\n' ∉ text.takeWhile (· ≠ '\n') := fun h =>
  absurd (List.all_eq_true.mp List.all_takeWhile '\n' h) (by decide)

/-- What is left after a line is empty or begins with the line break. -/
theorem dropWhile_cases (text : List Char) :
    text.dropWhile (· ≠ '\n') = [] ∨ ∃ later, text.dropWhile (· ≠ '\n') = '\n' :: later := by
  cases hdrop : text.dropWhile (· ≠ '\n') with
  | nil => exact .inl rfl
  | cons c later =>
    have hc := List.head?_dropWhile_not (· ≠ '\n') text
    rw [hdrop] at hc
    have hbreak : c = '\n' := by simpa using hc
    exact .inr ⟨later, by rw [hbreak]⟩

/-- The line before a position begins with the text or after a line break. -/
theorem exists_lineBefore (text : List Char) :
    ∃ before, text = before ++ lineBefore text ∧ '\n' ∉ lineBefore text ∧
      (before = [] ∨ ∃ earlier, before = earlier ++ ['\n']) := by
  refine ⟨(text.reverse.dropWhile (· ≠ '\n')).reverse, ?_, ?_, ?_⟩
  · rw [lineBefore, ← List.reverse_append, List.takeWhile_append_dropWhile, List.reverse_reverse]
  · rw [lineBefore, List.mem_reverse]
    exact not_mem_takeWhile text.reverse
  · rcases dropWhile_cases text.reverse with hnil | ⟨later, hlater⟩
    · exact .inl (by rw [hnil, List.reverse_nil])
    · exact .inr ⟨later.reverse, by rw [hlater, List.reverse_cons]⟩

/-- **What is shown of a text** is the line around the position. -/
theorem exists_lineAround {text : List Char} {offset : Nat} (inside : offset ≤ text.length) :
    ∃ before after, LineAround text offset before
      (lineBefore (text.take offset) ++ lineAfter (text.drop offset)) after ∧
      offset = before.length + (lineBefore (text.take offset)).length := by
  obtain ⟨before, hbefore, hleft, hbegins⟩ := exists_lineBefore (text.take offset)
  have hoffset := congrArg List.length hbefore
  rw [List.length_take, Nat.min_eq_left inside, List.length_append] at hoffset
  refine ⟨before, (text.drop offset).dropWhile (· ≠ '\n'), ⟨?_, hbegins, dropWhile_cases _, ?_, ?_⟩,
    hoffset⟩
  · rw [← List.append_assoc, ← hbefore, List.append_assoc, lineAfter, List.takeWhile_append_dropWhile,
      List.take_append_drop]
  · rw [List.mem_append, not_or]
    exact ⟨hleft, not_mem_takeWhile _⟩
  · rw [List.length_append]
    omega

/-! ## Markers -/

/-- A **marker under a line**, for a span that begins at a column and is so wide. -/
structure Marks (shown : List Char) (column width : Nat) (marker : List Char) : Prop where
  length : marker.length = column + width
  padding : ∀ k, k < column → marker[k]? = some (if shown[k]? = some '\t' then '\t' else ' ')
  underlining : ∀ k, k < width →
    marker[column + k]? = some (if k = 0 ∨ k + 1 = width then '^' else '~')

/-- A padding is as wide as the text that it stands under. -/
@[simp] theorem length_padLike (before : List Char) : (padLike before).length = before.length :=
  List.length_map _

/-- A padding is on one line. -/
@[simp] theorem newline_not_mem_padLike (before : List Char) : '\n' ∉ padLike before := by
  rw [padLike, List.mem_map]
  rintro ⟨c, -, hc⟩
  split at hc <;> cases hc

/-- So is an underline. -/
@[simp] theorem newline_not_mem_underline (width : Nat) : '\n' ∉ underline width := by
  match width with
  | 0 => exact List.not_mem_nil
  | 1 => decide
  | n + 2 => simp [underline]

/-- A caret at each end and tildes between. -/
@[simp] theorem getElem?_underline {k width : Nat} (h : k < width) :
    (underline width)[k]? = some (if k = 0 ∨ k + 1 = width then '^' else '~') := by
  match width, k with
  | 1, 0 => rfl
  | n + 2, 0 => rfl
  | n + 2, k + 1 =>
    rw [underline, List.getElem?_cons_succ]
    by_cases hlast : k = n
    · subst hlast
      simp
    · have hinner : k < n := by omega
      rw [List.getElem?_append_left (by simpa using hinner), List.getElem?_replicate, if_pos hinner,
        if_neg (by omega)]

/-- **Padding and underline** are a marker for the span after `before`. -/
theorem marks_padLike (before after : List Char) (width : Nat) :
    Marks (before ++ after) before.length width (padLike before ++ underline width) := by
  refine ⟨by simp [length_underline], ?_, ?_⟩
  · intro k hk
    have hpad : k < (padLike before).length := by simpa using hk
    rw [List.getElem?_append_left hpad, padLike, List.getElem?_map, List.getElem?_append_left hk]
    simp only [List.getElem?_eq_getElem hk, Option.map_some, Option.some.injEq]
  · intro k hk
    have hpast : (padLike before).length ≤ before.length + k := by simp
    rw [List.getElem?_append_right hpast, length_padLike, Nat.add_sub_cancel_left, getElem?_underline hk]

/-! ## Marked messages -/

/-- **Texts without line breaks are the lines** of what they are joined to. -/
theorem splitOn_joinLines {lines : List String} (unbroken : ∀ line ∈ lines, '\n' ∉ line.toList)
    (nonempty : lines ≠ []) : (joinLines lines).toList.splitOn '\n' = lines.map String.toList := by
  rw [joinLines, String.toList_intercalate]
  refine List.splitOn_intercalate '\n' ?_ (by simpa using nonempty)
  intro l hl
  obtain ⟨line, hline, rfl⟩ := List.mem_map.mp hl
  exact unbroken line hline

/-- **The lines of a marked message**: the message, the line around the offset, and a marker under it that
is clipped to the line but never empty. -/
theorem markedMessage_lines (message : String) {source : String} {offset length : Nat}
    (nonempty : source ≠ "") (inside : offset ≤ source.length) (present : 1 ≤ length) :
    ∃ before line after marker, LineAround source.toList offset before line after ∧
      Marks line (offset - before.length)
        (min length (max 1 (line.length - (offset - before.length)))) marker ∧
      '\n' ∉ marker ∧
      markedMessage message source offset length =
        joinLines [message, String.ofList line, String.ofList marker] := by
  rw [← String.length_toList] at inside
  obtain ⟨before, after, hline, hoffset⟩ := exists_lineAround inside
  -- the column is what the line has before the offset
  have hcolumn : offset - before.length = (lineBefore (source.toList.take offset)).length := by omega
  have hposition : clampPosition source.toList.length offset = offset := by
    rw [clampPosition, if_neg (by omega), Int.toNat_natCast, Nat.min_eq_left inside]
  have hwidth : (min (length : Int) (max 1 ((offset : Int) +
      (lineAfter (source.toList.drop offset)).length - offset))).toNat =
      min length (max 1 (lineAfter (source.toList.drop offset)).length) := by omega
  have hmarked : ¬ ((length : Int) < 1 ∨ source = "") := by
    rintro (hshort | hempty)
    · omega
    · exact nonempty hempty
  refine ⟨before, _, after, padLike (lineBefore (source.toList.take offset)) ++
    underline (min length (max 1 (lineAfter (source.toList.drop offset)).length)), hline, ?_, ?_, ?_⟩
  · rw [hcolumn, List.length_append, Nat.add_sub_cancel_left]
    exact marks_padLike _ _ _
  · rw [List.mem_append, not_or]
    exact ⟨newline_not_mem_padLike _, newline_not_mem_underline _⟩
  · rw [markedMessage, if_neg hmarked]
    simp only [hposition, hwidth]

end Reckoner
