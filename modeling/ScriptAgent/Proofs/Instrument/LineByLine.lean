import Mathlib.Data.List.Basic
import ScriptAgent.Instrument.Hooks
import ScriptAgent.Proofs.Text.Rows

/-!
# A script is hooked line by line

What becomes of a line depends on the line and on what is known after the lines above it.  `Hooking.before` is
that knowledge; each list that the instrumenter grows has at a line's place what the line gave.
-/

namespace ScriptAgent

theorem utf8Size_cons (c : Char) (cs : List Char) : utf8Size (c :: cs) = c.utf8Size + utf8Size cs := by
  have sum (cs : List Char) : utf8Size cs = (cs.map Char.utf8Size).sum := by
    rw [List.sum_eq_foldl, List.foldl_map]
    rfl
  rw [sum, sum, List.map_cons, List.sum_cons]

namespace Line

/-- The blanks a line starts with. -/
def indent (line : List Char) : List Char :=
  line.takeWhile Text.isBlank

theorem indent_append_dropBlank (line : List Char) : indent line ++ Text.dropBlank line = line :=
  List.takeWhile_append_dropWhile

theorem take_eq_indent (line : List Char) :
    line.take (line.length - (Text.dropBlank line).length) = indent line := by
  have hlength := congrArg List.length (indent_append_dropBlank line)
  rw [List.length_append] at hlength
  have hsub : line.length - (Text.dropBlank line).length = (indent line).length := by omega
  calc line.take (line.length - (Text.dropBlank line).length)
      = (indent line ++ Text.dropBlank line).take (indent line).length := by rw [hsub, indent_append_dropBlank]
    _ = indent line := List.take_left

/-- What a line is taken for where a statement can begin. -/
inductive Kind where
  | comment (text : List Char)
  | yielded (expr : List Char)
  /-- A statement that may assign the result of a call. -/
  | statement (call : Option (String × String))
  | other

/-- What a line with a given body is taken for. -/
def kindOf (body : List Char) : Kind :=
  match comment body, yielded body with
  | some text, _ => .comment text
  | none, some expr => .yielded expr
  | none, none => if beginsStatement body then .statement (assignedCall body) else .other

/-- The hooks of line `n` where a statement begins; `id` numbers its call. -/
def statementHooks (call : Option (String × String)) (n id : Nat) : List Char :=
  lineHook n ++ if call.isSome then callHook id else []

/-- What becomes of a line by what it is taken for. -/
def Kind.hooked (kind : Kind) (line : List Char) (n id : Nat) : HookedLine :=
  match kind with
  | .comment text => ⟨indent line ++ commentHook text n, line, 0, none⟩
  | .yielded expr =>
    ⟨indent line ++ lineHook n ++ yieldHook expr, indent line ++ yieldHook expr, (lineHook n).length, none⟩
  | .statement call =>
    let hooks := statementHooks call n id
    ⟨indent line ++ hooks ++ Text.dropBlank line, line, hooks.length, call⟩
  | .other => ⟨line, line, 0, none⟩

theorem hookLine_eq (line : List Char) (n id : Nat) :
    hookLine (indent line) (Text.dropBlank line) line n id =
      (kindOf (Text.dropBlank line)).hooked line n id := by
  unfold hookLine kindOf
  cases comment (Text.dropBlank line) with
  | some text => rfl
  | none =>
    cases yielded (Text.dropBlank line) with
    | some expr => rfl
    | none =>
      cases beginsStatement (Text.dropBlank line) with
      | false => rfl
      | true => cases assignedCall (Text.dropBlank line) <;> simp [Kind.hooked, statementHooks]

end Line

namespace Hooking

/-- What is known before line `n`, counted from zero. -/
def before (lines : List (List Char)) (n : Nat) : Hooking :=
  (lines.take n).foldl addLine {}

/-- Whether a statement can begin with the next line. -/
def starting (r : Hooking) (line : List Char) : Bool :=
  r.scanner.atStatementStart && !(Text.dropBlank line).isEmpty

/-- What the next line is taken for. -/
def kind (r : Hooking) (line : List Char) : Line.Kind :=
  if r.starting line then Line.kindOf (Text.dropBlank line) else .other

/-- What becomes of the next line. -/
def hooked (r : Hooking) (line : List Char) : HookedLine :=
  (r.kind line).hooked line (r.plain.length + 1) (r.calls.length + 1)

theorem hooked_eq (r : Hooking) (line : List Char) :
    r.hooked line = if r.scanner.atStatementStart && !(Text.dropBlank line).isEmpty then
      hookLine (line.take (line.length - (Text.dropBlank line).length)) (Text.dropBlank line) line
        (r.plain.length + 1) (r.calls.length + 1) else ⟨line, line, 0, none⟩ := by
  unfold hooked kind starting
  split
  · rw [Line.take_eq_indent, Line.hookLine_eq]
  · rfl

theorem instrumented_addLine (r : Hooking) (line : List Char) :
    (r.addLine line).instrumented = r.instrumented ++ [(r.hooked line).instrumented] := by
  rw [hooked_eq]
  rfl

theorem plain_addLine (r : Hooking) (line : List Char) :
    (r.addLine line).plain = r.plain ++ [(r.hooked line).plain] := by
  rw [hooked_eq]
  rfl

theorem map_addLine (r : Hooking) (line : List Char) :
    (r.addLine line).map = r.map ++ [(utf8Size (Line.indent line), (r.hooked line).hooks)] := by
  rw [hooked_eq, ← Line.take_eq_indent]
  rfl

section Growing

variable {α : Type} (part : Hooking → List α) (gives : Hooking → List Char → α)

theorem prefix_foldl_addLine (hpart : ∀ r line, part (r.addLine line) = part r ++ [gives r line])
    (lines : List (List Char)) (r : Hooking) : part r <+: part (lines.foldl addLine r) := by
  induction lines generalizing r with
  | nil => exact List.prefix_rfl
  | cons line lines ih =>
    have hstep : part r <+: part (r.addLine line) := ⟨_, (hpart r line).symm⟩
    exact hstep.trans (ih (r.addLine line))

/-- A list that grows by one element with every line has at a line's place what the line gave. -/
theorem getElem?_foldl_addLine (hpart : ∀ r line, part (r.addLine line) = part r ++ [gives r line])
    (lines : List (List Char)) (n : Nat) (r : Hooking) :
    (part (lines.foldl addLine r))[(part r).length + n]? =
      lines[n]?.map (gives ((lines.take n).foldl addLine r)) := by
  induction lines generalizing r n with
  | nil => simp
  | cons line lines ih =>
    cases n with
    | zero =>
      obtain ⟨more, hmore⟩ := prefix_foldl_addLine part gives hpart lines (r.addLine line)
      simp [← hmore, hpart]
    | succ n =>
      have hlength : (part (r.addLine line)).length + n = (part r).length + (n + 1) := by
        simp only [hpart, List.length_append, List.length_singleton]
        omega
      have hrest := ih n (r.addLine line)
      rw [hlength] at hrest
      simpa using hrest

include gives in
/-- A list that grows by one element with every line has one for every line. -/
theorem length_foldl_addLine (hpart : ∀ r line, part (r.addLine line) = part r ++ [gives r line])
    (lines : List (List Char)) (r : Hooking) : (part (lines.foldl addLine r)).length = (part r).length + lines.length := by
  induction lines generalizing r with
  | nil => rfl
  | cons line lines ih =>
    rw [List.foldl_cons, ih, hpart, List.length_append, List.length_cons, List.length_cons, List.length_nil]
    omega

end Growing

theorem length_plain_before (lines : List (List Char)) {n : Nat} (h : n ≤ lines.length) :
    (before lines n).plain.length = n := by
  rw [before, length_foldl_addLine plain _ plain_addLine, List.length_take, Nat.min_eq_left h]
  exact Nat.zero_add n

/-- The scanner before a line has read all lines above it. -/
theorem scanner_before (lines : List (List Char)) (n : Nat) :
    (before lines n).scanner = (lines.take n).foldl LineScanner.scan {} := by
  have go (ls : List (List Char)) (r : Hooking) :
      (ls.foldl addLine r).scanner = ls.foldl LineScanner.scan r.scanner := by
    induction ls generalizing r with
    | nil => rfl
    | cons line ls ih => exact ih (r.addLine line)
  exact go _ {}

end Hooking

section Instrument

variable {source : String} {line : List Char} {n : Nat}

theorem getElem?_instrument {α : Type} (part : Hooking → List α) (gives : Hooking → List Char → α)
    (hpart : ∀ r line, part (r.addLine line) = part r ++ [gives r line]) (hnil : part {} = [])
    (hline : (Text.lineChars source.toList)[n]? = some line) :
    (part (instrument source))[n]? = some (gives (Hooking.before (Text.lineChars source.toList) n) line) := by
  have h := Hooking.getElem?_foldl_addLine part gives hpart (Text.lineChars source.toList) n {}
  rw [hline, hnil, List.length_nil, Nat.zero_add] at h
  exact h

theorem instrument_instrumented (hline : (Text.lineChars source.toList)[n]? = some line) :
    (instrument source).instrumented[n]? =
      some ((Hooking.before (Text.lineChars source.toList) n).hooked line).instrumented :=
  getElem?_instrument Hooking.instrumented _ Hooking.instrumented_addLine rfl hline

theorem instrument_plain (hline : (Text.lineChars source.toList)[n]? = some line) :
    (instrument source).plain[n]? = some ((Hooking.before (Text.lineChars source.toList) n).hooked line).plain :=
  getElem?_instrument Hooking.plain _ Hooking.plain_addLine rfl hline

theorem instrument_map (hline : (Text.lineChars source.toList)[n]? = some line) :
    (instrument source).map[n]? = some (utf8Size (Line.indent line),
      ((Hooking.before (Text.lineChars source.toList) n).hooked line).hooks) :=
  getElem?_instrument Hooking.map _ Hooking.map_addLine rfl hline

theorem length_instrumented (source : String) :
    (instrument source).instrumented.length = (Text.lineChars source.toList).length :=
  (Hooking.length_foldl_addLine Hooking.instrumented _ Hooking.instrumented_addLine _ {}).trans (Nat.zero_add _)

theorem length_plain (source : String) :
    (instrument source).plain.length = (Text.lineChars source.toList).length :=
  (Hooking.length_foldl_addLine Hooking.plain _ Hooking.plain_addLine _ {}).trans (Nat.zero_add _)

theorem length_map (source : String) :
    (instrument source).map.length = (Text.lineChars source.toList).length :=
  (Hooking.length_foldl_addLine Hooking.map _ Hooking.map_addLine _ {}).trans (Nat.zero_add _)

end Instrument

/-! ### Lines stay lines -/

namespace Line

theorem notMem_trimChars {c : Char} {cs : List Char} (h : c ∉ cs) : c ∉ Text.trimChars cs := by
  intro hmem
  have hend : c ∈ (Text.dropBlank cs).reverse :=
    (List.dropWhile_sublist Text.isBlank).mem (List.mem_reverse.mp hmem)
  exact h ((List.dropWhile_sublist Text.isBlank).mem (List.mem_reverse.mp hend))

theorem notMem_dropBlank {c : Char} {cs : List Char} (h : c ∉ cs) : c ∉ Text.dropBlank cs :=
  fun hmem => h ((List.dropWhile_sublist Text.isBlank).mem hmem)

theorem notMem_quote {cs : List Char} (h : '\n' ∉ cs) : '\n' ∉ quote cs := by
  have hchar (c : Char) (hc : c ≠ '\n') : '\n' ∉ quoteChar c := by
    unfold quoteChar
    split
    · decide
    · split
      · decide
      · split
        · decide
        · simpa using Ne.symm hc
  simp only [quote, List.cons_append, List.mem_cons, List.mem_append, List.mem_flatMap, not_or]
  refine ⟨by decide, ?_, by decide⟩
  rintro ⟨c, hc, hmem⟩
  exact hchar c (fun heq => h (heq ▸ hc)) hmem

theorem notMem_lineHook (n : Nat) : '\n' ∉ lineHook n := by
  simp [lineHook, Nat.toString_eq_repr, Nat.repr, Text.notMem_toDigits]

theorem notMem_callHook (id : Nat) : '\n' ∉ callHook id := by
  simp [callHook, Nat.toString_eq_repr, Nat.repr, Text.notMem_toDigits]

theorem notMem_statementHooks (call : Option (String × String)) (n id : Nat) : '\n' ∉ statementHooks call n id := by
  intro hmem
  rcases List.mem_append.mp hmem with hmem | hmem
  · exact notMem_lineHook n hmem
  · cases call with
    | none => exact List.not_mem_nil hmem
    | some call => exact notMem_callHook id hmem

theorem notMem_commentHook {text : List Char} (h : '\n' ∉ text) (n : Nat) : '\n' ∉ commentHook text n := by
  intro hmem
  rcases List.mem_append.mp hmem with hmem | hmem
  · rcases List.mem_append.mp hmem with hmem | hmem
    · exact absurd hmem (by decide)
    · exact notMem_quote h hmem
  · simp [Nat.toString_eq_repr, Nat.repr, Text.notMem_toDigits] at hmem

end Line

end ScriptAgent
