import ScriptAgent.Proofs.Text.Rows
import ScriptAgent.Sandbox.Excerpt

/-!
# Where the caret of an excerpt points

An excerpt is read row by row.  Each line of the script has one row: a label, which is the mark and the number,
and then the text of the line.  The row of the caret stands below the marked one.  Labels are as wide as their
numbers, while the caret is moved by a fixed margin, so it stands below its character as long as the number
of the line has no more than three digits; with every further digit it stands one place further to the left.
-/

namespace ScriptAgent

namespace Excerpt

open Text (rows)

/-! ### Rows -/

/-- What a row shows before the text of its line: the mark and the number. -/
def label (marked : Bool) (number : Nat) : List Char :=
  (if marked then '>' else ' ') :: ' ' :: (List.replicate (3 - (Nat.repr number).length) '0' ++
    ((Nat.repr number).toList ++ [' ', '|', ' ']))

/-- The rows of the lines of a script, each line once and in order, with one of them marked. -/
def lineRows (source : String) (line : Nat) : List (List Char) :=
  (Text.lines source).mapIdx fun i text => label (i + 1 == line) (i + 1) ++ text.toList

theorem toList_numbered (marked : Bool) (number : Nat) (text : String) :
    (numbered marked number text).toList = label marked number ++ text.toList := by
  cases marked <;> simp [numbered, label, Text.padLeft, Nat.toString_eq_repr]

theorem length_label (marked : Bool) (number : Nat) :
    (label marked number).length = 5 + max 3 (Nat.repr number).length := by
  simp only [label, List.length_cons, List.length_append, List.length_replicate, String.length_toList,
    List.length_nil]
  omega

theorem head?_label (marked : Bool) (number : Nat) (cs : List Char) :
    (label marked number ++ cs).head? = some (if marked then '>' else ' ') := rfl

theorem notMem_label (marked : Bool) (number : Nat) : '\n' ∉ label marked number := by
  have hdigits := Text.notMem_toDigits number
  cases marked <;> simp [label, hdigits]

theorem toList_repeated_space (n : Nat) : (Text.repeated n " ").toList = List.replicate n ' ' := by
  induction n with
  | zero => rfl
  | succ n ih =>
    have hjoin : Text.repeated (n + 1) " " = " " ++ Text.repeated n " " := by
      simp [Text.repeated, List.replicate_succ]
    rw [hjoin, String.toList_append, ih, List.replicate_succ]
    rfl

theorem toList_caretLine (column : Nat) :
    (caretLine column).toList = List.replicate (margin + (max column 1 - 1)) ' ' ++ List.replicate 10 '^' := by
  simp [caretLine, toList_repeated_space, List.replicate]

/-- The first caret stands right after the spaces. -/
theorem idxOf_caretLine {column : Nat} (h : 1 ≤ column) :
    (caretLine column).toList.idxOf '^' = margin + (column - 1) := by
  have hspaces : '^' ∉ List.replicate (margin + (column - 1)) ' ' := by simp
  rw [toList_caretLine, Nat.max_eq_left h, List.idxOf_append, if_neg hspaces]
  simp [List.replicate]

/-! ### The marked line among the others -/

/-- Lines with one marked, as rows. -/
theorem map_withMark (line : Nat) (texts : List String) (number : Nat) :
    (withMark line number texts).map String.toList =
      texts.mapIdx fun i text => label (i + number == line) (i + number) ++ text.toList := by
  induction texts generalizing number with
  | nil => rfl
  | cons text texts ih =>
    have hshift (i : Nat) : i + 1 + number = i + (number + 1) := by omega
    simp [withMark, List.mapIdx_cons, ih, toList_numbered, hshift]

theorem withMark_append (line : Nat) (above below : List String) (number : Nat) :
    withMark line number (above ++ below) =
      withMark line number above ++ withMark line (number + above.length) below := by
  induction above generalizing number with
  | nil => rfl
  | cons text above ih =>
    have hshift : number + 1 + above.length = number + (above.length + 1) := by omega
    simp [withMark, ih, hshift]

/-- Below the marked line no line is marked any more. -/
theorem withCaret_of_lt {line number : Nat} (column : Option Nat) (texts : List String) (h : line < number) :
    withCaret line column number texts = withMark line number texts := by
  induction texts generalizing number with
  | nil => rfl
  | cons text texts ih =>
    have hne : (number == line) = false := by simp; omega
    simp [withCaret, withMark, hne, ih (Nat.lt_succ_of_lt h)]

/-- The row of the caret stands right below the marked line, all else is as without it. -/
theorem withCaret_append (column : Option Nat) (above below : List String) (text : String) (number : Nat) :
    withCaret (number + above.length) column number (above ++ text :: below) =
      withMark (number + above.length) number above ++ numbered true (number + above.length) text ::
        caretLine (column.getD 1) :: withMark (number + above.length) (number + above.length + 1) below := by
  induction above generalizing number with
  | nil => simp [withCaret, withMark, withCaret_of_lt column below (Nat.lt_succ_self number)]
  | cons first above ih =>
    have hne : (number == number + (above.length + 1)) = false := by simp
    have hshift : number + (above.length + 1) = number + 1 + above.length := by omega
    simp only [List.cons_append, List.length_cons, withCaret, withMark, hne, Bool.false_eq_true, if_false]
    rw [hshift, ih (number + 1)]

theorem notMem_withCaret {line number : Nat} {column : Option Nat} {texts : List String}
    (h : ∀ t ∈ texts, '\n' ∉ t.toList) : ∀ t ∈ withCaret line column number texts, '\n' ∉ t.toList := by
  induction texts generalizing number with
  | nil => simp [withCaret]
  | cons text texts ih =>
    have hrest : ∀ t ∈ withCaret line column (number + 1) texts, '\n' ∉ t.toList :=
      ih fun t ht => h t (List.mem_cons_of_mem _ ht)
    have hrow (marked : Bool) : '\n' ∉ (numbered marked number text).toList := by
      rw [toList_numbered, List.mem_append, not_or]
      exact ⟨notMem_label marked number, h text List.mem_cons_self⟩
    have hcaret (n : Nat) : '\n' ∉ (caretLine n).toList := by simp [toList_caretLine]
    intro t ht
    rw [withCaret] at ht
    split at ht
    · rcases List.mem_cons.mp ht with rfl | ht
      · exact hrow true
      · rcases List.mem_cons.mp ht with rfl | ht
        · exact hcaret _
        · exact hrest t ht
    · rcases List.mem_cons.mp ht with rfl | ht
      · exact hrow false
      · exact hrest t ht

/-! ### Excerpts of errors -/

section OfError

variable {source text : String} {line : Nat}

/-- The lines around a line that exists. -/
theorem lines_around (hpos : 1 ≤ line) (htext : (Text.lines source)[line - 1]? = some text) :
    ∃ above below, Text.lines source = above ++ text :: below ∧ 1 + above.length = line := by
  obtain ⟨hlt, hget⟩ := List.getElem?_eq_some_iff.mp htext
  have hdrop := List.drop_eq_getElem_cons hlt
  rw [hget] at hdrop
  refine ⟨_, _, (List.take_append_drop (line - 1) (Text.lines source)).symm.trans (by rw [hdrop]), ?_⟩
  rw [List.length_take]
  omega

/-- An excerpt has the rows of the lines, and the caret's row right below the one that is marked. -/
theorem rows_ofError (column : Option Nat) (hpos : 1 ≤ line)
    (htext : (Text.lines source)[line - 1]? = some text) :
    ∃ above below, 1 + above.length = line ∧
      lineRows source line = (withMark line 1 above).map String.toList ++
        (label true line ++ text.toList) :: (withMark line (line + 1) below).map String.toList ∧
      rows (ofError source line column) = (withMark line 1 above).map String.toList ++
        (label true line ++ text.toList) :: (caretLine (column.getD 1)).toList ::
          (withMark line (line + 1) below).map String.toList := by
  obtain ⟨above, below, hlines, hline⟩ := lines_around hpos htext
  have hmark := withMark_append line above (text :: below) 1
  have hcaret := withCaret_append column above below text 1
  rw [hline] at hmark hcaret
  refine ⟨above, below, hline, ?_, ?_⟩
  · rw [lineRows, ← map_withMark line _ 1, hlines, hmark]
    simp [withMark, toList_numbered]
  · have hne : withCaret line column 1 (Text.lines source) ≠ [] := by
      rw [hlines, hcaret]
      simp
    have hrows := Text.rows_unlines hne (notMem_withCaret fun t ht => Text.notMem_of_mem_lines ht)
    rw [ofError, ← Text.unlines, hrows, hlines, hcaret]
    simp [toList_numbered]

/-- A row other than the marked one begins with a space. -/
theorem head?_of_mem_withMark {number : Nat} {texts : List String} {row : List Char}
    (hout : line < number ∨ number + texts.length ≤ line)
    (hrow : row ∈ (withMark line number texts).map String.toList) : row.head? = some ' ' := by
  rw [map_withMark] at hrow
  obtain ⟨i, hi, rfl⟩ := List.mem_mapIdx.mp hrow
  have hne : (i + number == line) = false := by simp; omega
  rw [hne, head?_label, if_neg Bool.false_ne_true]

/-- **The caret of an excerpt.**  All lines of the script are listed once and in order, only the given one is marked,
and right below it stands the caret's row.  Its first caret stands below the character at the given column as long
as the number of the line has at most three digits, and one place further to the left for every further digit. -/
theorem ofError_points {column : Nat} {c : Char} (hpos : 1 ≤ line)
    (htext : (Text.lines source)[line - 1]? = some text) (hcol : 1 ≤ column)
    (hchar : text.toList[column - 1]? = some c) :
    ∃ above marked caret below,
      rows (ofError source line (some column)) = above ++ marked :: caret :: below ∧
      lineRows source line = above ++ marked :: below ∧ above.length = line - 1 ∧
      marked.head? = some '>' ∧ (∀ row ∈ above ++ caret :: below, row.head? = some ' ') ∧
      ∃ place, place = (label true line).length + (column - 1) ∧ marked[place]? = some c ∧
        caret.idxOf '^' + ((Nat.repr line).length - 3) = place ∧ (caret.idxOf '^' = place ↔ line < 1000) := by
  obtain ⟨above, below, hline, hlines, hrows⟩ := rows_ofError (some column) hpos htext
  have hdigits : (Nat.repr line).length ≤ 3 ↔ line < 1000 := Nat.length_repr_le_iff (by decide)
  have hcaret := idxOf_caretLine hcol
  have hlabel := length_label true line
  refine ⟨(withMark line 1 above).map String.toList, label true line ++ text.toList, (caretLine column).toList,
    (withMark line (line + 1) below).map String.toList, hrows, hlines, ?_, rfl, ?_, _, rfl, ?_, ?_, ?_⟩
  · rw [map_withMark, List.length_mapIdx]
    omega
  · intro row hrow
    rcases List.mem_append.mp hrow with hrow | hrow
    · exact head?_of_mem_withMark (Or.inr (by omega)) hrow
    · rcases List.mem_cons.mp hrow with rfl | hrow
      · simp [toList_caretLine, margin, Nat.add_comm 8, List.replicate_succ]
      · exact head?_of_mem_withMark (Or.inl (Nat.lt_succ_self line)) hrow
  · rw [List.getElem?_append_right (Nat.le_add_right _ _), Nat.add_sub_cancel_left]
    exact hchar
  · rw [hcaret, hlabel, margin]
    omega
  · rw [hcaret, hlabel, margin, ← hdigits]
    omega

end OfError

/-- The `b` of `let b = boom();` is found in its row right above the caret. -/
theorem boom_points :
    (Text.lines "let a = 1;\nlet b = boom();")[2 - 1]? = some "let b = boom();" ∧
      ∃ above marked caret below,
        rows (ofError "let a = 1;\nlet b = boom();" 2 (some 9)) = above ++ marked :: caret :: below ∧
        marked[caret.idxOf '^']? = some 'b' := by
  have htext : (Text.lines "let a = 1;\nlet b = boom();")[2 - 1]? = some "let b = boom();" := by decide +kernel
  have hchar : "let b = boom();".toList[9 - 1]? = some 'b' := by decide +kernel
  obtain ⟨above, marked, caret, below, hrows, -, -, -, -, place, -, hmarked, -, hplace⟩ :=
    ofError_points (by decide) htext (by decide) hchar
  exact ⟨htext, above, marked, caret, below, hrows, hplace.mpr (by decide) ▸ hmarked⟩

theorem getElem?_lines_replicate (n : Nat) :
    (Text.lines (String.ofList (List.replicate n '\n' ++ ['x'])))[n]? = some "x" := by
  have hlast : (Text.lineChars ['x']).map String.ofList = ["x"] := rfl
  rw [Text.lines, String.toList_ofList, Text.lineChars_replicate, List.map_append, hlast,
    List.getElem?_append_right (by simp)]
  simp

/-- In line 1000 the caret stands one place to the left of the character it is about. -/
theorem thousandth_caret_is_off :
    let source := String.ofList (List.replicate 999 '\n' ++ ['x'])
    (Text.lines source)[1000 - 1]? = some "x" ∧
      ∃ above caret below,
        rows (ofError source 1000 (some 1)) = above ++ "> 1000 | x".toList :: caret :: below ∧
          "> 1000 | x".toList.idxOf 'x' = 9 ∧ caret.idxOf '^' = 8 := by
  intro source
  have htext : (Text.lines source)[1000 - 1]? = some "x" := getElem?_lines_replicate 999
  obtain ⟨above, below, -, -, hrows⟩ := rows_ofError (some 1) (by decide) htext
  exact ⟨htext, _, _, _, hrows, by decide +kernel, idxOf_caretLine (Nat.le_refl 1)⟩

end Excerpt

end ScriptAgent
