import Mathlib.Data.List.Nodup
import ScriptAgent.Proofs.Instrument.Columns

/-!
# Hooks can be erased

The map of a script has for every line the bytes of its indentation and of its hooks.  Without these bytes a line with
hooks is the line without hooks, unless it is a comment, and that line is the script's own, unless it yields.  What is
erased are the hook with the line's number and, if the line assigns the result of a call, the hook with the call's
number.  Calls are numbered from one on, downwards, and each number stands in one line, that of its assignment.
-/

namespace ScriptAgent

/-! ### Bytes -/

namespace Text

/-- The bytes of characters in UTF-8. -/
def bytes (cs : List Char) : List UInt8 :=
  cs.flatMap String.utf8EncodeChar

theorem bytes_append (cs rest : List Char) : bytes (cs ++ rest) = bytes cs ++ bytes rest :=
  List.flatMap_append

theorem length_bytes (cs : List Char) : (bytes cs).length = utf8Size cs := by
  induction cs with
  | nil => rfl
  | cons c cs ih =>
    rw [bytes, List.flatMap_cons, List.length_append, String.length_utf8EncodeChar, ← bytes, ih, utf8Size_cons]

/-- Every character is one byte. -/
def OneByte (cs : List Char) : Prop :=
  ∀ c ∈ cs, c.utf8Size = 1

instance (cs : List Char) : Decidable (OneByte cs) :=
  List.decidableBAll _ cs

theorem OneByte.append {cs rest : List Char} (h : OneByte cs) (hrest : OneByte rest) : OneByte (cs ++ rest) :=
  List.forall_mem_append.mpr ⟨h, hrest⟩

theorem OneByte.length_bytes {cs : List Char} (h : OneByte cs) : (bytes cs).length = cs.length := by
  induction cs with
  | nil => rfl
  | cons c cs ih =>
    obtain ⟨hc, hcs⟩ := List.forall_mem_cons.mp h
    rw [bytes, List.flatMap_cons, List.length_append, String.length_utf8EncodeChar, ← bytes, ih hcs, hc, List.length_cons]
    omega

theorem oneByte_toString_nat (n : Nat) : OneByte (toString n).toList := by
  intro c hc
  rw [toList_toString_nat] at hc
  have hdigit := toNat_of_isDigit (isDigit_of_mem_toDigits hc)
  have hsmall : c.val ≤ 127 := UInt32.le_iff_toNat_le.mpr (Nat.le_trans hdigit.2 (by decide))
  simp [Char.utf8Size, hsmall]

end Text

/-! ### The hooks of a line -/

/-- Which hooks a line has. -/
inductive LineHooks where
  | none
  /-- The one with its number. -/
  | line
  /-- Behind that the one that announces a call, by the call's number. -/
  | call (id : Nat)

/-- The hooks of a line that has a number. -/
def LineHooks.text (number : Nat) : LineHooks → List Char
  | .none => []
  | .line => Line.lineHook number
  | .call id => Line.lineHook number ++ Line.callHook id

theorem Line.oneByte_lineHook (n : Nat) : Text.OneByte (lineHook n) := by
  rw [lineHook, String.toList_append, String.toList_append]
  exact Text.OneByte.append (Text.OneByte.append (by decide) (Text.oneByte_toString_nat n)) (by decide)

theorem Line.oneByte_callHook (id : Nat) : Text.OneByte (callHook id) := by
  rw [callHook, String.toList_append, String.toList_append]
  exact Text.OneByte.append (Text.OneByte.append (by decide) (Text.oneByte_toString_nat id)) (by decide)

theorem LineHooks.oneByte_text (number : Nat) (hooks : LineHooks) : Text.OneByte (hooks.text number) := by
  cases hooks with
  | none => exact fun _ h => absurd h List.not_mem_nil
  | line => exact Line.oneByte_lineHook number
  | call id => exact (Line.oneByte_lineHook number).append (Line.oneByte_callHook id)

/-- The hooks of a line by what it is taken for. -/
def Line.Kind.lineHooks (id : Nat) : Line.Kind → LineHooks
  | .yielded _ => .line
  | .statement call => if call.isSome then .call id else .line
  | _ => .none

namespace Hooking

/-- The hooks of the next line. -/
def lineHooks (r : Hooking) (line : List Char) : LineHooks :=
  (r.kind line).lineHooks (r.calls.length + 1)

end Hooking

/-! ### Erasing them -/

/-- Bytes without those that a map tells of: so many, behind the first ones. -/
def erased (entry : Nat × Nat) (bytes : List UInt8) : List UInt8 :=
  bytes.take entry.1 ++ bytes.drop (entry.1 + entry.2)

/-- The bytes that a map tells of. -/
def deleted (entry : Nat × Nat) (bytes : List UInt8) : List UInt8 :=
  (bytes.drop entry.1).take entry.2

theorem erased_between (indent hooks rest : List Char) (h : Text.OneByte hooks) :
    erased (utf8Size indent, hooks.length) (Text.bytes (indent ++ hooks ++ rest)) = Text.bytes (indent ++ rest) ∧
      deleted (utf8Size indent, hooks.length) (Text.bytes (indent ++ hooks ++ rest)) = Text.bytes hooks := by
  have hindent := Text.length_bytes indent
  have hhooks := h.length_bytes
  have hboth : (Text.bytes (indent ++ hooks)).length = utf8Size indent + hooks.length := by
    rw [Text.bytes_append, List.length_append, hindent, hhooks]
  constructor
  · rw [erased, ← hboth, Text.bytes_append, List.drop_left, Text.bytes_append, List.append_assoc, ← hindent,
      List.take_left, Text.bytes_append]
  · rw [deleted, List.append_assoc, Text.bytes_append, ← hindent, List.drop_left, Text.bytes_append, ← hhooks,
      List.take_left]

/-- A line of a script with hooks and without, by what it is taken for, and what the map has for it. -/
structure LineErases (kind : Line.Kind) (number : Nat) (line hooked plain : List Char) (entry : Nat × Nat)
    (hooks : LineHooks) : Prop where
  /-- Without the hooks it is the line without hooks, and only hooks are erased. -/
  erased : (∀ text, kind ≠ .comment text) → ScriptAgent.erased entry (Text.bytes hooked) = Text.bytes plain ∧
    ScriptAgent.deleted entry (Text.bytes hooked) = Text.bytes (hooks.text number)
  comment : ∀ text, kind = .comment text → hooked = Line.indent line ++ Line.commentHook text number ∧ hooks = .none
  unchanged : (∀ expr, kind ≠ .yielded expr) → plain = line
  yielded : ∀ expr, kind = .yielded expr → plain = Line.indent line ++ Line.yieldHook expr

theorem Line.Kind.erases (kind : Line.Kind) (line : List Char) (number id : Nat) :
    LineErases kind number line (kind.hooked line number id).instrumented (kind.hooked line number id).plain
      (utf8Size (Line.indent line), (kind.hooked line number id).hooks) (kind.lineHooks id) := by
  cases kind with
  | comment text =>
    refine ⟨fun h => absurd rfl (h text), fun _ h => ?_, fun _ => rfl, fun _ h => ?_⟩ <;> cases h
    exact ⟨rfl, rfl⟩
  | yielded expr =>
    refine ⟨fun _ => ?_, fun _ h => ?_, fun h => absurd rfl (h expr), fun _ h => ?_⟩
    · exact erased_between _ _ _ (Line.oneByte_lineHook number)
    · cases h
    · cases h
      rfl
  | statement call =>
    refine ⟨fun _ => ?_, fun _ h => ?_, fun _ => rfl, fun _ h => ?_⟩
    · have hhooks : ((Kind.statement call).lineHooks id).text number = Line.statementHooks call number id := by
        cases call with
        | none => exact (List.append_nil _).symm
        | some call => rfl
      have herased := erased_between (Line.indent line) (Line.statementHooks call number id) (Text.dropBlank line)
        (hhooks ▸ LineHooks.oneByte_text number _)
      rw [Line.indent_append_dropBlank] at herased
      rwa [hhooks]
    · cases h
    · cases h
  | other =>
    refine ⟨fun _ => ?_, fun _ h => ?_, fun _ => rfl, fun _ h => ?_⟩
    · have herased := erased_between (Line.indent line) [] (Text.dropBlank line) (LineHooks.oneByte_text number .none)
      rwa [List.append_nil, Line.indent_append_dropBlank] at herased
    · cases h
    · cases h

/-! ### Numbers of calls -/

namespace Hooking

theorem calls_addLine (r : Hooking) (line : List Char) : (r.addLine line).calls = r.calls ++
    ((r.hooked line).call.map fun call =>
      (r.calls.length + 1, (⟨call.1, call.2, r.plain.length + 1⟩ : Assignment))).toList := by
  rw [hooked_eq, addLine]
  dsimp only
  split
  · next target callee h => rw [h]; rfl
  · next h => rw [h]; exact (List.append_nil _).symm

/-- A line has the hook of a call if it assigns one, and that is the next number. -/
theorem lineHooks_eq_call_iff {r : Hooking} {line : List Char} {id : Nat} :
    r.lineHooks line = .call id ↔ (r.hooked line).call.isSome = true ∧ id = r.calls.length + 1 := by
  unfold lineHooks hooked
  cases r.kind line with
  | statement call => cases call <;> simp [Line.Kind.lineHooks, Line.Kind.hooked, eq_comm]
  | _ => simp [Line.Kind.lineHooks, Line.Kind.hooked]

theorem before_append {lines more : List (List Char)} {n : Nat} (h : n ≤ lines.length) :
    before (lines ++ more) n = before lines n := by
  rw [before, before, List.take_append_of_le_length h]

theorem before_length (lines : List (List Char)) : before lines lines.length = lines.foldl addLine {} := by
  rw [before, List.take_length]

/-- Line `n`, counted from zero, has the hook of a call. -/
def Announced (lines : List (List Char)) (n id : Nat) : Prop :=
  lines[n]?.map (before lines n).lineHooks = some (.call id)

/-- Calls are numbered from one on, each stands in its line alone, and later ones stand further down. -/
structure Numbered (lines : List (List Char)) (calls : List (Nat × Assignment)) : Prop where
  ids : calls.map Prod.fst = List.range' 1 calls.length
  place : ∀ id a, (id, a) ∈ calls → ∃ n, a.line = n + 1 ∧ Announced lines n id
  known : ∀ n id, Announced lines n id → ∃ a, (id, a) ∈ calls ∧ a.line = n + 1
  downwards : (calls.map fun call => call.2.line).Pairwise (· < ·)

theorem Announced.lt {lines : List (List Char)} {n id : Nat} (h : Announced lines n id) : n < lines.length := by
  obtain ⟨line, hline, -⟩ := Option.map_eq_some_iff.mp h
  exact (List.getElem?_eq_some_iff.mp hline).1

theorem announced_concat_of_lt {lines : List (List Char)} {line : List Char} {n id : Nat} (h : n < lines.length) :
    Announced (lines ++ [line]) n id ↔ Announced lines n id := by
  rw [Announced, Announced, List.getElem?_append_left h, before_append h.le]

theorem announced_concat_length {lines : List (List Char)} {line : List Char} {id : Nat} :
    Announced (lines ++ [line]) lines.length id ↔ (lines.foldl addLine {}).lineHooks line = .call id := by
  rw [Announced, List.getElem?_concat_length, before_append (Nat.le_refl _), before_length, Option.map_some,
    Option.some.injEq]

/-- One more line keeps calls numbered. -/
theorem Numbered.addLine {lines : List (List Char)} (h : Numbered lines (lines.foldl Hooking.addLine {}).calls)
    (line : List Char) : Numbered (lines ++ [line]) ((lines ++ [line]).foldl Hooking.addLine {}).calls := by
  have hlength : (lines.foldl Hooking.addLine {}).plain.length = lines.length := by
    rw [← before_length, length_plain_before lines (Nat.le_refl _)]
  have hlast (id : Nat) := (@announced_concat_length lines line id).trans lineHooks_eq_call_iff
  rw [List.foldl_append, List.foldl_cons, List.foldl_nil, calls_addLine, hlength]
  generalize lines.foldl Hooking.addLine {} = r at h hlast
  -- the calls so far stay in their places
  have hplace : ∀ id a, (id, a) ∈ r.calls → ∃ n, a.line = n + 1 ∧ n < lines.length ∧ Announced (lines ++ [line]) n id := by
    intro id a hmem
    obtain ⟨n, hn, hannounced⟩ := h.place id a hmem
    exact ⟨n, hn, hannounced.lt, (announced_concat_of_lt hannounced.lt).mpr hannounced⟩
  have hknown : ∀ n id, Announced (lines ++ [line]) n id → n ≠ lines.length → ∃ a, (id, a) ∈ r.calls ∧ a.line = n + 1 := by
    intro n id hannounced hne
    have hlt := hannounced.lt
    rw [List.length_append, List.length_singleton] at hlt
    exact h.known n id ((announced_concat_of_lt (by omega)).mp hannounced)
  -- the line may be one more call, with the next number
  cases hcall : (r.hooked line).call with
  | none =>
    rw [Option.map_none, Option.toList_none, List.append_nil]
    refine ⟨h.ids, fun id a hmem => ?_, fun n id hannounced => ?_, h.downwards⟩
    · obtain ⟨n, hn, -, hannounced⟩ := hplace id a hmem
      exact ⟨n, hn, hannounced⟩
    · refine hknown n id hannounced ?_
      rintro rfl
      simp [hlast, hcall] at hannounced
  | some call =>
    rw [Option.map_some, Option.toList_some]
    have hhere : Announced (lines ++ [line]) lines.length (r.calls.length + 1) :=
      (hlast _).mpr ⟨by rw [hcall, Option.isSome_some], rfl⟩
    refine ⟨?_, fun id a hmem => ?_, fun n id hannounced => ?_, ?_⟩
    · rw [List.map_append, h.ids, List.length_append, List.length_singleton, List.range'_1_concat, Nat.add_comm 1]
      rfl
    · rcases List.mem_append.mp hmem with hold | hnew
      · obtain ⟨n, hn, -, hannounced⟩ := hplace id a hold
        exact ⟨n, hn, hannounced⟩
      · obtain ⟨rfl, rfl⟩ := Prod.mk.inj (List.mem_singleton.mp hnew)
        exact ⟨lines.length, rfl, hhere⟩
    · by_cases hn : n = lines.length
      · subst hn
        obtain ⟨-, rfl⟩ := (hlast id).mp hannounced
        exact ⟨_, List.mem_append_right _ List.mem_cons_self, rfl⟩
      · obtain ⟨a, hmem, ha⟩ := hknown n id hannounced hn
        exact ⟨a, List.mem_append_left _ hmem, ha⟩
    · rw [List.map_append, List.map_singleton, List.pairwise_append]
      refine ⟨h.downwards, List.pairwise_singleton _ _, fun l hl l' hl' => ?_⟩
      obtain ⟨⟨id, a⟩, hmem, rfl⟩ := List.mem_map.mp hl
      obtain ⟨n, hn, hlt, -⟩ := hplace id a hmem
      rw [List.mem_singleton.mp hl']
      show a.line < lines.length + 1
      omega

theorem numbered_before (lines : List (List Char)) : Numbered lines (lines.foldl Hooking.addLine {}).calls := by
  induction lines using List.reverseRecOn with
  | nil =>
    exact ⟨rfl, fun _ _ h => absurd h List.not_mem_nil, fun _ _ h => absurd h.lt (Nat.not_lt_zero _), List.Pairwise.nil⟩
  | append_singleton lines line ih => exact ih.addLine line

/-- The numbers of calls are those that lines have. -/
theorem Numbered.announced_somewhere_iff {lines : List (List Char)} {calls : List (Nat × Assignment)}
    (h : Numbered lines calls) (id : Nat) : (∃ n, Announced lines n id) ↔ 1 ≤ id ∧ id ≤ calls.length := by
  have hmem : (∃ n, Announced lines n id) ↔ id ∈ calls.map Prod.fst := by
    constructor
    · rintro ⟨n, hannounced⟩
      obtain ⟨a, hmem, -⟩ := h.known n id hannounced
      exact List.mem_map_of_mem hmem
    · intro hid
      obtain ⟨⟨id, a⟩, hmem, rfl⟩ := List.mem_map.mp hid
      obtain ⟨n, -, hannounced⟩ := h.place id a hmem
      exact ⟨n, hannounced⟩
  rw [hmem, h.ids, List.mem_range'_1]
  omega

/-- Each call's number stands in one line, the one that its assignment has. -/
theorem Numbered.announced_iff {lines : List (List Char)} {calls : List (Nat × Assignment)} (h : Numbered lines calls)
    {id : Nat} {a : Assignment} (hmem : (id, a) ∈ calls) (n : Nat) : Announced lines n id ↔ a.line = n + 1 := by
  have hnodup : (calls.map Prod.fst).Nodup := by
    rw [h.ids]
    exact List.nodup_range'
  constructor
  · intro hannounced
    obtain ⟨a', hmem', ha'⟩ := h.known n id hannounced
    obtain rfl : a' = a := congrArg Prod.snd (List.inj_on_of_nodup_map hnodup hmem' hmem rfl)
    exact ha'
  · intro ha
    obtain ⟨m, hm, hannounced⟩ := h.place id a hmem
    obtain rfl : m = n := by omega
    exact hannounced

end Hooking

/-! ### Whole scripts -/

section Source

variable {source : String}

theorem rows_instrumented (hne : Text.lineChars source.toList ≠ []) :
    Text.rows (joinLines (instrument source).instrumented) = (instrument source).instrumented :=
  rows_joinLines _ (length_instrumented source) (fun _ _ hline => ⟨instrument_instrumented hline,
    (Hooking.notMem_hooked (Text.notMem_of_mem_lineChars (List.mem_of_getElem? hline))).1⟩) hne

theorem rows_plain (hne : Text.lineChars source.toList ≠ []) :
    Text.rows (joinLines (instrument source).plain) = (instrument source).plain :=
  rows_joinLines _ (length_plain source) (fun _ _ hline => ⟨instrument_plain hline,
    (Hooking.notMem_hooked (Text.notMem_of_mem_lineChars (List.mem_of_getElem? hline))).2⟩) hne

/-- What the instrumenter makes of a line. -/
theorem line_erases {n : Nat} {line : List Char} (hline : (Text.lineChars source.toList)[n]? = some line) :
    ∃ hooked plain entry, (instrument source).instrumented[n]? = some hooked ∧ (instrument source).plain[n]? = some plain ∧
      (instrument source).map[n]? = some entry ∧
      LineErases ((Hooking.before (Text.lineChars source.toList) n).kind line) (n + 1) line hooked plain entry
        ((Hooking.before (Text.lineChars source.toList) n).lineHooks line) := by
  have hle : n ≤ (Text.lineChars source.toList).length := (List.getElem?_eq_some_iff.mp hline).1.le
  have herases := ((Hooking.before (Text.lineChars source.toList) n).kind line).erases line
    ((Hooking.before (Text.lineChars source.toList) n).plain.length + 1)
    ((Hooking.before (Text.lineChars source.toList) n).calls.length + 1)
  refine ⟨_, _, _, instrument_instrumented hline, instrument_plain hline, instrument_map hline, ?_⟩
  rw [Hooking.length_plain_before _ hle] at herases
  rw [Hooking.hooked, Hooking.length_plain_before _ hle]
  exact herases

end Source

/-- **Hooks can be erased.**  A script has as many lines with hooks, lines without hooks and entries in its map as it has
lines, and they are the rows of the two scripts that are made.  There are hooks, for each line its own, such that erasing
the bytes that the map tells of leaves the line without hooks, but for comments, and what is erased are these hooks; the
line without hooks is the script's own, unless it yields.  The numbers of calls are those from one on, each in the hooks
of just the line that its assignment has, and these lines are in order. -/
theorem hooks_are_erasable (source : String) :
    let lines := Text.lineChars source.toList
    let r := instrument source
    r.instrumented.length = lines.length ∧ r.plain.length = lines.length ∧ r.map.length = lines.length ∧
    (lines ≠ [] → Text.rows (joinLines r.instrumented) = r.instrumented ∧ Text.rows (joinLines r.plain) = r.plain) ∧
    ∃ hooks : List LineHooks, hooks.length = lines.length ∧
      (∀ n line, lines[n]? = some line → ∃ hooked plain entry lineHooks,
        r.instrumented[n]? = some hooked ∧ r.plain[n]? = some plain ∧ r.map[n]? = some entry ∧
        hooks[n]? = some lineHooks ∧
        LineErases ((Hooking.before lines n).kind line) (n + 1) line hooked plain entry lineHooks) ∧
      r.calls.map Prod.fst = List.range' 1 r.calls.length ∧
      (∀ id, (∃ n : Nat, hooks[n]? = some (.call id)) ↔ 1 ≤ id ∧ id ≤ r.calls.length) ∧
      (∀ id a, (id, a) ∈ r.calls → ∀ n : Nat, hooks[n]? = some (.call id) ↔ a.line = n + 1) ∧
      (r.calls.map fun call => call.2.line).Pairwise (· < ·) := by
  intro lines r
  have hnumbered : Hooking.Numbered lines r.calls := Hooking.numbered_before lines
  have hhooks (n id : Nat) :
      (lines.mapIdx fun n line => (Hooking.before lines n).lineHooks line)[n]? = some (.call id) ↔
        Hooking.Announced lines n id := by
    rw [List.getElem?_mapIdx, Hooking.Announced]
  refine ⟨length_instrumented source, length_plain source, length_map source,
    fun hne => ⟨rows_instrumented hne, rows_plain hne⟩, _, List.length_mapIdx, fun n line hline => ?_,
    hnumbered.ids, fun id => ?_, fun id a hmem n => (hhooks n id).trans (hnumbered.announced_iff hmem n),
    hnumbered.downwards⟩
  · obtain ⟨hooked, plain, entry, hinstrumented, hplain, hentry, herases⟩ := line_erases hline
    refine ⟨hooked, plain, entry, _, hinstrumented, hplain, hentry, ?_, herases⟩
    rw [List.getElem?_mapIdx, hline]
    rfl
  · rw [← hnumbered.announced_somewhere_iff id]
    exact exists_congr fun n => hhooks n id

end ScriptAgent
