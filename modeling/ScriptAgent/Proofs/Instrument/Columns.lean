import Mathlib.Data.List.DropRight
import ScriptAgent.Instrument.Compile
import ScriptAgent.Proofs.Instrument.LineByLine
import ScriptAgent.Proofs.Text.Blanks

/-!
# Columns of the script that runs, mapped back

The line that runs is made of parts: parts copied from the script's line, hooks, and what is written for a
`yield` or a comment.  The map of a script knows the indentation and the hooks of a line.

* A column is mapped back to the place it had without the hooks, unless it lies before the end of the hooks by the
  map's count.  The map counts the indentation in bytes, while columns count characters.
* So all copied characters are mapped back exactly, except for those that follow an indentation with characters of
  several bytes and lie within the excess of its bytes, and those of a yielded expression: `__yield(` stands where
  `yield` and the blanks behind it stood, and the map does not count the difference.
-/

namespace ScriptAgent

/-- A part of a line of the script that runs. -/
inductive LinePart where
  /-- Characters copied from the script's line, behind the first `start` of its characters. -/
  | copied (start : Nat) (cs : List Char)
  /-- The hooks of a statement. -/
  | hooks (cs : List Char)
  /-- What stands for the characters of the script's line that are not copied. -/
  | written (cs : List Char)

namespace LinePart

/-- The characters of a part. -/
def chars : LinePart → List Char
  | .copied _ cs => cs
  | .hooks cs => cs
  | .written cs => cs

/-- How many characters some parts have. -/
def width (parts : List LinePart) : Nat :=
  (parts.flatMap chars).length

/-- How many characters of some parts belong to hooks. -/
def hooksWidth : List LinePart → Nat
  | [] => 0
  | .hooks cs :: rest => cs.length + hooksWidth rest
  | _ :: rest => hooksWidth rest

end LinePart

namespace Line

/-- The blanks behind the word `yield`. -/
def yieldGap (body : List Char) : List Char :=
  (body.drop "yield".toList.length).takeWhile Text.isBlank

/-- The parts that line `n` is made of with hooks or without, by what the line is taken for. -/
def Kind.parts (kind : Kind) (withHooks : Bool) (line : List Char) (n id : Nat) : List LinePart :=
  match kind with
  | .comment text =>
    if withHooks then [.copied 0 (indent line), .written (commentHook text n)] else [.copied 0 line]
  | .yielded expr =>
    [.copied 0 (indent line), .hooks (if withHooks then lineHook n else []), .written "__yield(".toList,
      .copied ((indent line).length + "yield".toList.length + (yieldGap (Text.dropBlank line)).length) expr,
      .written ");".toList]
  | .statement call =>
    if withHooks then
      [.copied 0 (indent line), .hooks (statementHooks call n id), .copied (indent line).length (Text.dropBlank line)]
    else [.copied 0 line]
  | .other => [.copied 0 line]

end Line

/-- The parts of the next line, with hooks or without. -/
def Hooking.parts (r : Hooking) (withHooks : Bool) (line : List Char) : List LinePart :=
  (r.kind line).parts withHooks line (r.plain.length + 1) (r.calls.length + 1)

/-- The parts make up the line that runs. -/
theorem Hooking.flatMap_parts (r : Hooking) (withHooks : Bool) (line : List Char) :
    (r.parts withHooks line).flatMap LinePart.chars =
      if withHooks then (r.hooked line).instrumented else (r.hooked line).plain := by
  unfold Hooking.parts Hooking.hooked
  cases r.kind line with
  | comment text => cases withHooks <;> simp [Line.Kind.parts, Line.Kind.hooked, LinePart.chars]
  | yielded expr =>
    have hyield : Line.yieldHook expr = "__yield(".toList ++ expr ++ ");".toList := rfl
    cases withHooks <;> simp only [Line.Kind.parts, Line.Kind.hooked, List.flatMap_cons, List.flatMap_nil, LinePart.chars,
      hyield, if_true, Bool.false_eq_true, if_false, List.append_nil, List.nil_append, List.append_assoc]
  | statement call => cases withHooks <;> simp [Line.Kind.parts, Line.Kind.hooked, LinePart.chars]
  | other => cases withHooks <;> simp [Line.Kind.parts, Line.Kind.hooked, LinePart.chars]

/-! ### What is yielded -/

namespace Line

/-- A start of a text that begins with no blank begins with none either. -/
theorem dropBlank_of_prefix {cs whole : List Char} (h : cs <+: Text.dropBlank whole) : Text.dropBlank cs = cs := by
  cases cs with
  | nil => rfl
  | cons c cs =>
    obtain ⟨rest, hrest⟩ := h
    have hhead := List.head?_dropWhile_not Text.isBlank whole
    rw [← Text.dropBlank, ← hrest, List.cons_append, List.head?_cons] at hhead
    rw [Text.dropBlank, List.dropWhile_cons_of_neg (by simpa using hhead)]

/-- A line that yields: `yield`, blanks, the expression and a semicolon, which only blanks follow. -/
theorem yielded_eq {body expr : List Char} (h : yielded body = some expr) :
    ∃ blanks after, body = "yield".toList ++ yieldGap body ++ expr ++ blanks ++ ';' :: after ∧
      yieldGap body ≠ [] ∧ (∀ c ∈ blanks, Text.isBlank c = true) ∧ ∀ c ∈ after, Text.isBlank c = true := by
  obtain ⟨rest, hrest, h⟩ := Option.bind_eq_some_iff.mp h
  have hbody : body = "yield".toList ++ rest := Text.afterStart?_eq_some_iff.mp hrest
  have hgap : yieldGap body = indent rest := by
    rw [yieldGap, hbody, List.drop_left]
    rfl
  simp only [Option.bind_eq_bind] at h
  split at h
  · cases h
  · next hblank =>
    split at h
    · cases h
    · next hsemicolon =>
      split at h
      · cases h
      · obtain rfl := Option.some.inj h
        -- the semicolon is the last character that is no blank
        obtain ⟨after, hafterBlank, hafter⟩ := Text.dropBlankEnd_split (Text.dropBlank rest)
        have hlast : (Text.trimChars rest).getLast? = some ';' := by simpa using hsemicolon
        have htrimmed := List.dropLast_append_getLast? ';' hlast
        have hinner : (Text.trimChars rest).dropLast <+: Text.dropBlank rest :=
          (List.dropLast_prefix _).trans ⟨after, hafter.symm⟩
        obtain ⟨blanks, hblanksBlank, hblanks⟩ := Text.dropBlankEnd_split (Text.trimChars rest).dropLast
        have hexpr : Text.trimChars (Text.trimChars rest).dropLast =
            Text.dropBlankEnd (Text.trimChars rest).dropLast := by
          rw [Text.trimChars, dropBlank_of_prefix hinner]
        refine ⟨blanks, after, ?_, ?_, hblanksBlank, hafterBlank⟩
        · calc body
              = "yield".toList ++ (indent rest ++ Text.dropBlank rest) := by rw [indent_append_dropBlank, ← hbody]
            _ = "yield".toList ++ (indent rest ++ (Text.trimChars rest ++ after)) := by rw [Text.trimChars, ← hafter]
            _ = "yield".toList ++ (indent rest ++
                  (Text.dropBlankEnd (Text.trimChars rest).dropLast ++ blanks ++ [';'] ++ after)) := by
                rw [← hblanks, htrimmed]
            _ = _ := by rw [hgap, hexpr]; simp only [List.append_assoc, List.singleton_append]
        · rw [hgap, indent]
          cases rest with
          | nil => simp at hblank
          | cons c rest =>
            have hc : Text.isBlank c = true := by simpa using hblank
            simp [hc]

/-- A yielded expression stands in its line behind `yield` and blanks. -/
theorem prefix_of_yielded {body expr : List Char} (h : yielded body = some expr) :
    expr <+: body.drop ("yield".toList.length + (yieldGap body).length) := by
  obtain ⟨blanks, after, hbody, -⟩ := yielded_eq h
  generalize yieldGap body = gap at hbody ⊢
  refine ⟨blanks ++ ';' :: after, ?_⟩
  rw [hbody, ← List.length_append, List.append_assoc, List.append_assoc, List.drop_left]

end Line

/-! ### Where copied characters stand -/

theorem length_le_utf8Size (cs : List Char) : cs.length ≤ utf8Size cs := by
  induction cs with
  | nil => exact Nat.le_refl 0
  | cons c cs ih =>
    have hc := c.utf8Size_pos
    rw [List.length_cons, utf8Size_cons]
    omega

/-- Where a copied part stands among the parts of its line: in the script's line and behind the parts before it. -/
structure LinePart.Stands (kind : Line.Kind) (withHooks : Bool) (line : List Char) (n id : Nat)
    (before : List LinePart) (start : Nat) (cs : List Char) : Prop where
  copied : cs <+: line.drop start
  /-- Only hooks have moved it, unless it is a yielded expression. -/
  moved : start + hooksWidth before = width before ∨
    kind = .yielded cs ∧ width before = (Line.indent line).length + hooksWidth before + "__yield(".toList.length ∧
      start = (Line.indent line).length + "yield".toList.length + (Line.yieldGap (Text.dropBlank line)).length
  /-- It stands behind the indentation and all hooks, or before all of them. -/
  side : hooksWidth before = (if withHooks then (kind.hooked line n id).hooks else 0) ∧
      (hooksWidth before = 0 ∨ (Line.indent line).length + hooksWidth before ≤ width before) ∨
    width before = 0 ∧ hooksWidth before = 0 ∧ cs.length ≤ (Line.indent line).length

theorem LinePart.Stands.whole {kind : Line.Kind} {withHooks : Bool} {line : List Char} {n id start : Nat}
    {before after : List LinePart} {cs : List Char} (hhooks : withHooks = false ∨ (kind.hooked line n id).hooks = 0)
    (h : [.copied 0 line] = before ++ .copied start cs :: after) : Stands kind withHooks line n id before start cs := by
  cases before with
  | nil =>
    obtain ⟨⟨rfl, rfl⟩, rfl⟩ : (0 = start ∧ line = cs) ∧ [] = after := by simpa using h
    refine ⟨List.prefix_rfl, Or.inl rfl, Or.inl ⟨?_, Or.inl rfl⟩⟩
    rcases hhooks with rfl | hhooks
    · rfl
    · simp [hhooks, hooksWidth]
  | cons p before => simp at h

theorem LinePart.Stands.indent (kind : Line.Kind) (withHooks : Bool) (line : List Char) (n id : Nat) :
    Stands kind withHooks line n id [] 0 (Line.indent line) :=
  ⟨⟨_, Line.indent_append_dropBlank line⟩, Or.inl rfl, Or.inr ⟨rfl, rfl, Nat.le_refl _⟩⟩

theorem Line.drop_indent (line : List Char) : line.drop (indent line).length = Text.dropBlank line :=
  calc line.drop (indent line).length
      = (indent line ++ Text.dropBlank line).drop (indent line).length := by rw [indent_append_dropBlank]
    _ = Text.dropBlank line := List.drop_left

theorem Line.Kind.stands {kind : Kind} {withHooks : Bool} {line : List Char} {n id start : Nat}
    {before after : List LinePart} {cs : List Char}
    (hkind : ∀ expr, kind = .yielded expr → Line.yielded (Text.dropBlank line) = some expr)
    (h : kind.parts withHooks line n id = before ++ .copied start cs :: after) :
    LinePart.Stands kind withHooks line n id before start cs := by
  cases kind with
  | other => exact .whole (Or.inr rfl) h
  | comment text =>
    cases withHooks with
    | false => exact .whole (Or.inl rfl) h
    | true =>
      rcases before with _ | ⟨p, _ | ⟨q, before⟩⟩
      · obtain ⟨⟨rfl, rfl⟩, -⟩ : (0 = start ∧ indent line = cs) ∧ _ := by simpa [parts] using h
        exact .indent _ true line n id
      · simp [parts] at h
      · simp [parts] at h
  | statement call =>
    cases withHooks with
    | false => exact .whole (Or.inl rfl) h
    | true =>
      -- the indentation and the text are copied, and the hook stands between them
      rcases before with _ | ⟨p, _ | ⟨q, _ | ⟨t, before⟩⟩⟩
      · obtain ⟨⟨rfl, rfl⟩, -⟩ : (0 = start ∧ indent line = cs) ∧ _ := by simpa [parts] using h
        exact .indent _ true line n id
      · simp [parts] at h
      · obtain ⟨rfl, rfl, ⟨rfl, rfl⟩, -⟩ : _ = p ∧ _ = q ∧ ((indent line).length = start ∧ Text.dropBlank line = cs) ∧ _ := by
          simpa [parts] using h
        refine ⟨by rw [drop_indent], Or.inl ?_, Or.inl ⟨?_, Or.inr ?_⟩⟩ <;>
          simp [LinePart.hooksWidth, LinePart.width, LinePart.chars, hooked]
      · simp [parts] at h
  | yielded expr =>
    rcases before with _ | ⟨p, _ | ⟨q, _ | ⟨t, _ | ⟨u, _ | ⟨v, before⟩⟩⟩⟩⟩
    · obtain ⟨⟨rfl, rfl⟩, -⟩ : (0 = start ∧ indent line = cs) ∧ _ := by simpa [parts] using h
      exact .indent _ withHooks line n id
    · simp [parts] at h
    · simp [parts] at h
    · -- the expression, behind the indentation, the hooks and `__yield(`
      simp only [parts, List.cons_append, List.nil_append, List.cons.injEq] at h
      obtain ⟨rfl, rfl, rfl, hpart, -⟩ := h
      obtain ⟨rfl, rfl⟩ := LinePart.copied.inj hpart
      refine ⟨?_, Or.inr ⟨rfl, ?_, rfl⟩, Or.inl ⟨?_, Or.inr ?_⟩⟩
      · rw [Nat.add_assoc, ← List.drop_drop, drop_indent]
        exact prefix_of_yielded (hkind expr rfl)
      · cases withHooks <;>
          simp [LinePart.width, LinePart.hooksWidth, LinePart.chars, Nat.add_assoc]
      · cases withHooks <;> simp [LinePart.hooksWidth, hooked]
      · cases withHooks <;> simp [LinePart.width, LinePart.hooksWidth, LinePart.chars]
    · simp [parts] at h
    · simp [parts] at h

/-! ### Columns -/

/-- How a map takes back the column at `place`, given its line's indentation and hooks. -/
theorem SourceMap.sourceColumn_eq {m : SourceMap} {n place indent hooks : Nat} (h : m.lines[n]? = some (indent, hooks))
    (hplace : 1 ≤ place) :
    m.sourceColumn (n + 1) place = if indent + hooks < place then place - hooks else min place (indent + 1) := by
  rw [sourceColumn, Nat.add_sub_cancel, h]
  dsimp only
  split
  · rfl
  · omega

/-- What a map says about the characters of a copied part: `start` characters of the script's line stand before
them, and the parts `before` of the line that runs. -/
structure LinePart.MapsBack (m : SourceMap) (kind : Line.Kind) (line : List Char) (n : Nat) (before : List LinePart)
    (start : Nat) (cs : List Char) : Prop where
  copied : cs <+: line.drop start
  /-- Only hooks have moved the part, unless it is a yielded expression: then also `__yield(` takes the place of
  `yield` and the blanks behind it. -/
  moved : start + hooksWidth before = width before ∨
    kind = .yielded cs ∧ width before = (Line.indent line).length + hooksWidth before + "__yield(".toList.length ∧
      start = (Line.indent line).length + "yield".toList.length + (Line.yieldGap (Text.dropBlank line)).length
  /-- Columns lose the hooks that stand before them, if the map sees that they stand behind the hooks. -/
  column : ∀ k < cs.length, m.sourceColumn (n + 1) (width before + k + 1) =
    if hooksWidth before = 0 ∨ utf8Size (Line.indent line) + hooksWidth before < width before + k + 1 then
      width before + k + 1 - hooksWidth before
    else min (width before + k + 1) (utf8Size (Line.indent line) + 1)
  /-- Where only hooks have moved the part, columns come back exactly behind the bytes of the indentation. -/
  exact_iff : start + hooksWidth before = width before → ∀ k < cs.length,
    (m.sourceColumn (n + 1) (width before + k + 1) = start + k + 1 ↔
      hooksWidth before = 0 ∨ utf8Size (Line.indent line) < start + k + 1)
  /-- Where the indentation has as many bytes as characters, columns come back exactly if only hooks have moved
  the part. -/
  exact_iff_of_narrow : utf8Size (Line.indent line) = (Line.indent line).length → ∀ k < cs.length,
    (m.sourceColumn (n + 1) (width before + k + 1) = start + k + 1 ↔ start + hooksWidth before = width before)

theorem LinePart.Stands.mapsBack {kind : Line.Kind} {withHooks : Bool} {line : List Char} {n number id start : Nat}
    {before : List LinePart} {cs : List Char} {m : SourceMap} (h : Stands kind withHooks line number id before start cs)
    (hm : m.lines[n]? = some (if withHooks then (utf8Size (Line.indent line), (kind.hooked line number id).hooks)
      else (0, 0))) :
    MapsBack m kind line n before start cs := by
  obtain ⟨hcopied, hmoved, hside⟩ := h
  have hsize := length_le_utf8Size (Line.indent line)
  have hcolumn : ∀ k < cs.length, m.sourceColumn (n + 1) (width before + k + 1) =
      if hooksWidth before = 0 ∨ utf8Size (Line.indent line) + hooksWidth before < width before + k + 1 then
        width before + k + 1 - hooksWidth before
      else min (width before + k + 1) (utf8Size (Line.indent line) + 1) := by
    intro k hk
    cases withHooks with
    | false =>
      have hnone : hooksWidth before = 0 := by
        rcases hside with ⟨hhooks, -⟩ | ⟨-, hhooks, -⟩ <;> simpa using hhooks
      rw [SourceMap.sourceColumn_eq hm (Nat.le_add_left 1 _), hnone]
      simp
    | true =>
      rw [SourceMap.sourceColumn_eq hm (Nat.le_add_left 1 _)]
      simp only [if_true] at hside
      rcases hside with ⟨hhooks, hbehind⟩ | ⟨hwidth, hnone, hshort⟩
      · rw [← hhooks]
        split <;> split <;> omega
      · rw [hwidth, hnone]
        split <;> simp <;> omega
  refine ⟨hcopied, hmoved, hcolumn, fun hplace k hk => ?_, fun hnarrow k hk => ?_⟩
  · rw [hcolumn k hk]
    split <;> omega
  · rw [hcolumn k hk]
    rcases hside with ⟨-, hbehind⟩ | ⟨hwidth, hnone, -⟩
    · split <;> omega
    · rw [hwidth, hnone] at hmoved ⊢
      split <;> omega

/-! ### The rows of the script that runs -/

section Rows

variable {r : Hooking} {line : List Char}

theorem Hooking.yielded_of_kind (expr : List Char) (h : r.kind line = .yielded expr) :
    Line.yielded (Text.dropBlank line) = some expr := by
  unfold kind Line.kindOf at h
  split at h
  · split at h
    · cases h
    · next heq =>
      cases h
      exact heq
    · split at h <;> cases h
  · cases h

theorem Hooking.comment_of_kind (text : List Char) (h : r.kind line = .comment text) :
    Line.comment (Text.dropBlank line) = some text := by
  unfold kind Line.kindOf at h
  split at h
  · split at h
    · next heq =>
      cases h
      exact heq
    · cases h
    · split at h <;> cases h
  · cases h

/-- No hook, and nothing else that is put into a line, ends the line. -/
theorem Hooking.notMem_hooked (h : '\n' ∉ line) :
    '\n' ∉ (r.hooked line).instrumented ∧ '\n' ∉ (r.hooked line).plain := by
  have hindent : '\n' ∉ Line.indent line := fun hmem => h ((List.takeWhile_sublist Text.isBlank).mem hmem)
  have hbody : '\n' ∉ Text.dropBlank line := Line.notMem_dropBlank h
  unfold Hooking.hooked
  cases hkind : r.kind line with
  | other => exact ⟨h, h⟩
  | statement call =>
    refine ⟨fun hmem => ?_, h⟩
    rcases List.mem_append.mp hmem with hmem | hmem
    · rcases List.mem_append.mp hmem with hmem | hmem
      · exact hindent hmem
      · exact Line.notMem_statementHooks call _ _ hmem
    · exact hbody hmem
  | comment text =>
    have htext : '\n' ∉ text := by
      obtain ⟨rest, hrest, rfl⟩ := Option.map_eq_some_iff.mp (Hooking.comment_of_kind text hkind)
      have hsuffix : rest <:+ Text.dropBlank line := ⟨_, (Text.afterStart?_eq_some_iff.mp hrest).symm⟩
      exact Line.notMem_trimChars fun hmem =>
        hbody (hsuffix.mem ((List.dropWhile_sublist (· == '/')).mem hmem))
    refine ⟨fun hmem => ?_, h⟩
    rcases List.mem_append.mp hmem with hmem | hmem
    · exact hindent hmem
    · exact Line.notMem_commentHook htext _ hmem
  | yielded expr =>
    have hexpr : '\n' ∉ expr := fun hmem =>
      hbody (List.mem_of_mem_drop ((Line.prefix_of_yielded (Hooking.yielded_of_kind expr hkind)).mem hmem))
    have hyield : '\n' ∉ Line.yieldHook expr := by
      intro hmem
      rcases List.mem_append.mp hmem with hmem | hmem
      · rcases List.mem_append.mp hmem with hmem | hmem
        · exact absurd hmem (by decide)
        · exact hexpr hmem
      · exact absurd hmem (by decide)
    refine ⟨fun hmem => ?_, fun hmem => ?_⟩
    · rcases List.mem_append.mp hmem with hmem | hmem
      · rcases List.mem_append.mp hmem with hmem | hmem
        · exact hindent hmem
        · exact Line.notMem_lineHook _ hmem
      · exact hyield hmem
    · rcases List.mem_append.mp hmem with hmem | hmem
      · exact hindent hmem
      · exact hyield hmem

/-- Lines made one by one of other lines are the rows of what is made of them, if none of them has a line feed. -/
theorem rows_joinLines {made lines : List (List Char)} (out : Nat → List Char → List Char)
    (hlength : made.length = lines.length)
    (hmade : ∀ n line, lines[n]? = some line → made[n]? = some (out n line) ∧ '\n' ∉ out n line) (hne : lines ≠ []) :
    Text.rows (joinLines made) = made := by
  have hfree : ∀ row ∈ made, '\n' ∉ row := by
    intro row hrow
    obtain ⟨n, hn, rfl⟩ := List.mem_iff_getElem.mp hrow
    obtain ⟨hout, hfree⟩ := hmade n _ (List.getElem?_eq_getElem (hlength ▸ hn))
    rw [List.getElem?_eq_getElem hn] at hout
    rwa [Option.some.inj hout]
  have hmade' : made ≠ [] := by
    intro hnil
    rw [hnil, List.length_nil] at hlength
    exact hne (List.length_eq_zero_iff.mp hlength.symm)
  rw [joinLines, Text.rows_unlines (by simpa using hmade') (by simpa using hfree), List.map_map]
  simp [Function.comp_def]

theorem getElem?_rows_joinLines {made lines : List (List Char)} {n : Nat} (out : Nat → List Char → List Char)
    (hlength : made.length = lines.length)
    (hmade : ∀ i l, lines[i]? = some l → made[i]? = some (out i l) ∧ '\n' ∉ out i l)
    (hline : lines[n]? = some line) : (Text.rows (joinLines made))[n]? = some (out n line) := by
  rw [rows_joinLines out hlength hmade (List.ne_nil_of_mem (List.mem_of_getElem? hline)), (hmade n line hline).1]

/-- The rows of the script that runs are made of the parts of its lines. -/
theorem getElem?_rows {source : String} {n : Nat} (withHooks : Bool)
    (hline : (Text.lineChars source.toList)[n]? = some line) :
    (Text.rows (joinLines (if withHooks then (instrument source).instrumented else (instrument source).plain)))[n]? =
      some (((Hooking.before (Text.lineChars source.toList) n).parts withHooks line).flatMap LinePart.chars) := by
  rw [Hooking.flatMap_parts]
  have hfree (i : Nat) (l : List Char) (hl : (Text.lineChars source.toList)[i]? = some l) :=
    Hooking.notMem_hooked (r := Hooking.before (Text.lineChars source.toList) i)
      (Text.notMem_of_mem_lineChars (List.mem_of_getElem? hl))
  cases withHooks with
  | true =>
    exact getElem?_rows_joinLines
      (fun i l => ((Hooking.before (Text.lineChars source.toList) i).hooked l).instrumented) (length_instrumented source)
      (fun i l hl => ⟨instrument_instrumented hl, (hfree i l hl).1⟩) hline
  | false =>
    exact getElem?_rows_joinLines
      (fun i l => ((Hooking.before (Text.lineChars source.toList) i).hooked l).plain) (length_plain source)
      (fun i l hl => ⟨instrument_plain hl, (hfree i l hl).2⟩) hline

end Rows

/-! ### Compiled scripts -/

/-- A script runs with its hooks if that parses, and else without them. -/
theorem compile_cases {source : String} {r : Compiled} (h : compile source = .ok r) :
    r.code = joinLines (instrument source).instrumented ∧ r.map = ⟨(instrument source).map⟩ ∨
      r.code = joinLines (instrument source).plain ∧ r.map = .identity (Text.lines source).length := by
  unfold compile at h
  dsimp only at h
  split at h
  · cases h
    exact .inl ⟨rfl, rfl⟩
  · split at h
    · cases h
      exact .inr ⟨rfl, rfl⟩
    · cases h

/-- **Columns mapped back.**  Line by line, the script that runs is made of parts, with hooks or without, and for every
character of every copied part the map gives the column that `LinePart.MapsBack` says: the one the character has in
the script's line wherever only hooks have moved it, as far as indentations have no characters of several bytes. -/
theorem columns_map_back {source : String} {r : Compiled} (h : compile source = .ok r) :
    ∃ withHooks : Bool, ∀ n line, (Text.lineChars source.toList)[n]? = some line →
      let hooking := Hooking.before (Text.lineChars source.toList) n
      (Text.rows r.code)[n]? = some ((hooking.parts withHooks line).flatMap LinePart.chars) ∧
        ∀ before start cs after, hooking.parts withHooks line = before ++ .copied start cs :: after →
          LinePart.MapsBack r.map (hooking.kind line) line n before start cs := by
  rcases compile_cases h with ⟨hcode, hmap⟩ | ⟨hcode, hmap⟩
  · refine ⟨true, fun n line hline => ⟨hcode ▸ getElem?_rows true hline, fun before start cs after hparts => ?_⟩⟩
    refine (Line.Kind.stands Hooking.yielded_of_kind hparts).mapsBack ?_
    rw [hmap, if_pos rfl]
    exact instrument_map hline
  · refine ⟨false, fun n line hline => ⟨hcode ▸ getElem?_rows false hline, fun before start cs after hparts => ?_⟩⟩
    refine (Line.Kind.stands Hooking.yielded_of_kind hparts).mapsBack ?_
    have hlength : n < (Text.lines source).length := by
      rw [Text.lines, List.length_map]
      exact (List.getElem?_eq_some_iff.mp hline).1
    rw [hmap, SourceMap.identity, List.getElem?_replicate, if_pos hlength]
    rfl

/-- A statement behind two spaces, and a yielded call behind three blanks: both have their columns back. -/
theorem twoLines_map_back :
    ∃ r, compile "  a = boom();\nyield   boom();" = .ok r ∧ ∃ withHooks : Bool, ∀ n line,
      (Text.lineChars "  a = boom();\nyield   boom();".toList)[n]? = some line →
      let hooking := Hooking.before (Text.lineChars "  a = boom();\nyield   boom();".toList) n
      (Text.rows r.code)[n]? = some ((hooking.parts withHooks line).flatMap LinePart.chars) ∧
        ∀ before start cs after, hooking.parts withHooks line = before ++ .copied start cs :: after →
          LinePart.MapsBack r.map (hooking.kind line) line n before start cs := by
  have hcompiles : (compile "  a = boom();\nyield   boom();").toOption.isSome := by decide +kernel
  cases hr : compile "  a = boom();\nyield   boom();" with
  | ok r => exact ⟨r, rfl, columns_map_back hr⟩
  | error e =>
    rw [hr] at hcompiles
    cases hcompiles

/-- A call yielded behind one blank comes back two columns to the right of its place, and a statement behind
an ideographic space, which has three bytes, likewise. -/
theorem columns_are_off :
    (compile "yield boom();").toOption.map (fun r => (r.code.toList[26 - 1]?, r.map.sourceColumn 1 26)) =
        some (some 'b', 9) ∧
      "yield boom();".toList[7 - 1]? = some 'b' ∧
      (compile "\u3000boom();").toOption.map (fun r => (r.code.toList[19 - 1]?, r.map.sourceColumn 1 19)) =
        some (some 'b', 4) ∧
      "\u3000boom();".toList[2 - 1]? = some 'b' := by
  decide +kernel

end ScriptAgent
