import Mathlib.Data.List.Basic
import ScriptAgent.Text.Lines

/-!
# Lines and rows

`Text.lines` drops the line feeds, and `rows` cuts a text at them.  No line holds a line feed, so lines that were
joined by line feeds are the rows of what was made of them.
-/

namespace ScriptAgent.Text

theorem notMem_endedLine {reversed : List Char} (h : '\n' ∉ reversed) : '\n' ∉ endedLine reversed := by
  unfold endedLine
  split
  · intro hmem
    exact h (List.mem_cons_of_mem _ (List.mem_reverse.mp hmem))
  · simpa using h

/-- No line holds a line feed, if what has been read of the current one holds none. -/
theorem notMem_of_mem_linesFrom (cs : List Char) :
    ∀ {current line : List Char}, '\n' ∉ current → line ∈ linesFrom current cs → '\n' ∉ line := by
  induction cs with
  | nil =>
    intro current line hcurrent hline
    by_cases hempty : current.isEmpty
    · simp [linesFrom, hempty] at hline
    · simp only [linesFrom, hempty, Bool.false_eq_true, if_false, List.mem_singleton] at hline
      simpa [hline] using hcurrent
  | cons c cs ih =>
    intro current line hcurrent hline
    by_cases hc : c = '\n'
    · subst hc
      rw [linesFrom] at hline
      rcases List.mem_cons.mp hline with rfl | hline
      · exact notMem_endedLine hcurrent
      · exact ih List.not_mem_nil hline
    · rw [linesFrom.eq_3 _ _ _ hc] at hline
      exact ih (by simp [hcurrent, Ne.symm hc]) hline

theorem notMem_of_mem_lineChars {cs line : List Char} (h : line ∈ lineChars cs) : '\n' ∉ line :=
  notMem_of_mem_linesFrom cs List.not_mem_nil h

theorem notMem_of_mem_lines {s line : String} (h : line ∈ lines s) : '\n' ∉ line.toList := by
  obtain ⟨cs, hcs, rfl⟩ := List.mem_map.mp h
  rw [String.toList_ofList]
  exact notMem_of_mem_lineChars hcs

theorem lineChars_replicate (n : Nat) (cs : List Char) :
    lineChars (List.replicate n '\n' ++ cs) = List.replicate n [] ++ lineChars cs := by
  induction n with
  | zero => rfl
  | succ n ih => exact congrArg ([] :: ·) ih

/-- Whether characters end a line or the text. -/
def EndsLine (cs : List Char) : Prop :=
  cs = [] ∨ (∃ rest, cs = '\n' :: rest) ∨ ∃ rest, cs = '\r' :: '\n' :: rest

/-- The text from the start of a line on, lines counted from zero. -/
def fromLine : Nat → List Char → List Char
  | 0, cs => cs
  | n + 1, cs => fromLine n ((cs.dropWhile (· != '\n')).drop 1)

/-- The row of a line: the line itself or followed by a carriage return. -/
theorem endedLine_reverse (row : List Char) :
    endedLine row.reverse = row ∨ row = endedLine row.reverse ++ ['\r'] := by
  unfold endedLine
  split
  · next rest h =>
    refine .inr ?_
    rw [← List.reverse_reverse row, h]
    simp
  · exact .inl (List.reverse_reverse row)

theorem lineChars_row {row : List Char} (h : '\n' ∉ row) (cs : List Char) :
    lineChars (row ++ '\n' :: cs) = endedLine row.reverse :: lineChars cs := by
  have go (current : List Char) :
      linesFrom current (row ++ '\n' :: cs) = endedLine (row.reverse ++ current) :: lineChars cs := by
    induction row generalizing current with
    | nil => rfl
    | cons c row ih =>
      obtain ⟨hc, hrow⟩ : '\n' ≠ c ∧ '\n' ∉ row := by simpa using h
      rw [List.cons_append, linesFrom.eq_3 _ _ _ (Ne.symm hc), ih hrow]
      simp
  rw [lineChars, go, List.append_nil]

theorem lineChars_last {row : List Char} (h : '\n' ∉ row) : lineChars row = if row.isEmpty then [] else [row] := by
  have go (current : List Char) :
      linesFrom current row = if (row.reverse ++ current).isEmpty then [] else [current.reverse ++ row] := by
    induction row generalizing current with
    | nil => simp [linesFrom]
    | cons c row ih =>
      obtain ⟨hc, hrow⟩ : '\n' ≠ c ∧ '\n' ∉ row := by simpa using h
      rw [linesFrom.eq_3 _ _ _ (Ne.symm hc), ih hrow]
      simp
  rw [lineChars, go]
  simp

theorem fromLine_row {row : List Char} (h : '\n' ∉ row) (cs : List Char) (n : Nat) :
    fromLine (n + 1) (row ++ '\n' :: cs) = fromLine n cs := by
  have hrest : (row ++ '\n' :: cs).dropWhile (· != '\n') = '\n' :: cs := by
    rw [List.dropWhile_append_of_pos, List.dropWhile_cons_of_neg (by simp)]
    intro c hc
    have hne : c ≠ '\n' := fun heq => h (heq ▸ hc)
    simpa using hne
  rw [fromLine, hrest]
  rfl

/-- Induction along the lines of a text. -/
theorem rowInduction {motive : List Char → Prop} (last : ∀ row, '\n' ∉ row → motive row)
    (row : ∀ row cs, '\n' ∉ row → motive cs → motive (row ++ '\n' :: cs)) (cs : List Char) : motive cs := by
  induction hlength : cs.length using Nat.strongRecOn generalizing cs with
  | ind length ih =>
    by_cases h : '\n' ∈ cs
    · obtain ⟨first, rest, rfl, hfirst⟩ := List.eq_append_cons_of_mem h
      refine row first rest hfirst (ih rest.length ?_ rest rfl)
      simp only [List.length_append, List.length_cons] at hlength
      omega
    · exact last cs h

/-- The text from a line on begins with the line. -/
theorem fromLine_eq {cs line : List Char} {n : Nat} (h : (lineChars cs)[n]? = some line) :
    ∃ tail, fromLine n cs = line ++ tail ∧ EndsLine tail := by
  induction cs using rowInduction generalizing n with
  | last row hrow =>
    rw [lineChars_last hrow] at h
    cases n with
    | zero =>
      split at h
      · cases h
      · obtain rfl : row = line := by simpa using h
        exact ⟨[], (List.append_nil row).symm, .inl rfl⟩
    | succ n => split at h <;> simp at h
  | row row cs hrow ih =>
    rw [lineChars_row hrow] at h
    cases n with
    | zero =>
      obtain rfl : endedLine row.reverse = line := by simpa using h
      rcases endedLine_reverse row with heq | heq
      · exact ⟨'\n' :: cs, by rw [heq]; rfl, .inr (.inl ⟨cs, rfl⟩)⟩
      · refine ⟨'\r' :: '\n' :: cs, ?_, .inr (.inr ⟨cs, rfl⟩)⟩
        rw [fromLine]
        conv_lhs => rw [heq]
        simp
    | succ n =>
      rw [fromLine_row hrow]
      exact ih (by simpa using h)

/-- The text from a line on begins with the row of the line: the line, or the line and a carriage return. -/
theorem fromLine_eq_row {cs line : List Char} {n : Nat} (h : (lineChars cs)[n]? = some line) :
    ∃ cr tail, fromLine n cs = line ++ cr ++ tail ∧ (cr = [] ∨ cr = ['\r']) ∧ (tail = [] ∨ tail.head? = some '\n') := by
  obtain ⟨tail, htext, hends⟩ := fromLine_eq h
  rcases hends with rfl | ⟨rest, rfl⟩ | ⟨rest, rfl⟩
  · exact ⟨[], [], by simpa using htext, .inl rfl, .inl rfl⟩
  · exact ⟨[], '\n' :: rest, by simpa using htext, .inl rfl, .inr rfl⟩
  · exact ⟨['\r'], '\n' :: rest, by simpa using htext, .inr rfl, .inr rfl⟩

/-- What stands between the line feeds of a text. -/
def rows (s : String) : List (List Char) :=
  s.toList.splitOn '\n'

/-- The rows of a text that was joined are the joined ones, as none of them holds a line feed. -/
theorem rows_unlines {texts : List String} (hne : texts ≠ []) (h : ∀ t ∈ texts, '\n' ∉ t.toList) :
    rows (unlines texts) = texts.map String.toList := by
  have hrows : ∀ row ∈ texts.map String.toList, '\n' ∉ row := by
    intro row hrow
    obtain ⟨t, ht, rfl⟩ := List.mem_map.mp hrow
    exact h t ht
  rw [rows, unlines, String.toList_intercalate]
  exact List.splitOn_intercalate '\n' hrows (by simpa using hne)

theorem notMem_toDigits (n : Nat) : '\n' ∉ Nat.toDigits 10 n :=
  fun h => absurd (Nat.isDigit_of_mem_toDigits (by decide) (by decide) h) (by decide)

end ScriptAgent.Text
