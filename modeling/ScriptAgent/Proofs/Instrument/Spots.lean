import Mathlib.Logic.Function.Iterate
import ScriptAgent.Proofs.Instrument.LineByLine

/-!
# The scanner, character by character

Of what the scanner knows inside a line only a part decides how it takes the next character: its `Mode`.  A `Spot`
is a place of a script with the scanner's mode there, and `Spot.next` reads one character.  The line feeds of the
script are read as well; at each line's start the mode is the one of the scanner that has read all lines above
(`Spot.reaches_line`).
-/

namespace ScriptAgent

/-- How the scanner takes the next character. -/
structure Mode where
  /-- Whether a line comment hides the rest of the line. -/
  hidden : Bool := false
  quote : Option Char := none
  skip : Bool := false
  inComment : Bool := false
  inBacktick : Bool := false
deriving DecidableEq

namespace Mode

/-- The next character is code. -/
def code : Mode := {}

/-- The mode after one character of a line, given the one behind it. -/
def read (m : Mode) (c : Char) (next : Option Char) : Mode :=
  if m.hidden then m
  else if m.skip then { m with skip := false }
  else
    match m.quote with
    | some q =>
      if c == '\\' then { m with skip := true } else if c == q then { m with quote := none } else m
    | none =>
      if m.inComment then
        if c == '*' && next == some '/' then { m with inComment := false, skip := true } else m
      else if m.inBacktick then
        if c == '\\' then { m with skip := true }
        else if c == Char.ofNat 96 then { m with inBacktick := false } else m
      else if c == '/' && next == some '/' then { m with hidden := true }
      else if c == '/' && next == some '*' then { m with inComment := true, skip := true }
      else if c == '"' || c == '\'' then { m with quote := some c }
      else if c == Char.ofNat 96 then { m with inBacktick := true }
      else m

/-- The mode at the start of the next line. -/
def newLine (m : Mode) : Mode :=
  { inComment := m.inComment, inBacktick := m.inBacktick }

/-- Only a slash or a star behind a character matters for it. -/
theorem read_congr (m : Mode) (c : Char) {next next' : Option Char} (hslash : next = some '/' ↔ next' = some '/')
    (hstar : next = some '*' ↔ next' = some '*') : m.read c next = m.read c next' := by
  have hs : (next == some '/') = (next' == some '/') := by simp [hslash]
  have ht : (next == some '*') = (next' == some '*') := by simp [hstar]
  simp only [read, hs, ht]

end Mode

/-- The mode of the scanner inside a line. -/
def LineScan.mode (s : LineScan) : Mode :=
  { quote := s.quote, skip := s.skip, inComment := s.scanner.inComment, inBacktick := s.scanner.inBacktick }

/-- Code changes brackets and the end of statements, but not the mode. -/
theorem LineScan.mode_code (s : LineScan) (c : Char) : (s.code c).mode = s.mode := by
  unfold code mode
  dsimp only
  repeat (split; · rfl)
  rfl

theorem LineScan.mode_pass (s : LineScan) (c : Char) : (s.pass c).mode = s.mode := rfl

/-- The mode of a whole line. -/
def Mode.run (m : Mode) : List Char → Mode
  | [] => m
  | c :: rest => (m.read c rest.head?).run rest

theorem Mode.run_hidden {m : Mode} (h : m.hidden = true) (line : List Char) : m.run line = m := by
  induction line with
  | nil => rfl
  | cons c rest ih =>
    have hread : m.read c rest.head? = m := by simp [read, h]
    rw [run, hread, ih]

/-- The scanner's run through a line, as far as the mode goes. -/
theorem LineScan.newLine_mode_run (line : List Char) (s : LineScan) :
    (s.run line).mode.newLine = (s.mode.run line).newLine := by
  induction line generalizing s with
  | nil => rfl
  | cons c rest ih =>
    -- each way `run` goes on reads one character; the mode reads it in the same way
    have follow {s' : LineScan} (h : s'.mode = s.mode.read c rest.head?) :
        (s'.run rest).mode.newLine = (s.mode.run (c :: rest)).newLine := by
      rw [ih, h, Mode.run]
    unfold run
    dsimp only
    split
    · next hskip => exact follow (by simp [mode, pass, Mode.read, hskip])
    next hskip =>
    split
    · -- in a quoted text
      next q hquote =>
      split_ifs with hescape hclose
      · exact follow (by simp [mode, pass, Mode.read, hskip, hquote, hescape])
      · exact follow (by simp [mode, pass, Mode.read, hskip, hquote, hescape, hclose])
      · exact follow (by simp [mode, pass, Mode.read, hskip, hquote, hescape, hclose])
    next hquote =>
    split
    · -- in a block comment
      next hcomment =>
      split_ifs with hclose
      · exact follow (by simp [mode, pass, Mode.read, hskip, hquote, hcomment, hclose])
      · exact follow (by simp [mode, pass, Mode.read, hskip, hquote, hcomment, hclose])
    next hcomment =>
    split
    · -- in a back-tick text
      next htick =>
      split_ifs with hescape hclose
      · exact follow (by simp [mode, pass, Mode.read, hskip, hquote, hcomment, htick, hescape])
      · exact follow (by simp [mode, pass, Mode.read, hskip, hquote, hcomment, htick, hescape, hclose])
      · exact follow (by simp [mode, pass, Mode.read, hskip, hquote, hcomment, htick, hescape, hclose])
    next htick =>
    split
    · -- `run` stops at a line comment; the mode reads on, and hides all of it
      next hline =>
      have hread : s.mode.read c rest.head? = { s.mode with hidden := true } := by
        simp [mode, Mode.read, hskip, hquote, hcomment, htick, hline]
      rw [Mode.run, hread, Mode.run_hidden rfl]
      rfl
    next hline =>
    split_ifs with hopen hopenQuote hopenTick
    · exact follow (by simp [mode, pass, Mode.read, hskip, hquote, hcomment, htick, hline, hopen])
    · exact follow (by simp [mode, pass, Mode.read, hskip, hquote, hcomment, htick, hline, hopen, hopenQuote])
    · exact follow (by simp [mode, pass, Mode.read, hskip, hquote, hcomment, htick, hline, hopen, hopenQuote, hopenTick])
    · refine follow ?_
      rw [mode_pass, mode_code]
      simp [mode, Mode.read, hskip, hquote, hcomment, htick, hline, hopen, hopenQuote, hopenTick]

/-- The mode at the start of a line is kept by the scanner. -/
theorem LineScanner.newLine_run (k : LineScanner) (line : List Char) :
    (Mode.run { inComment := k.inComment, inBacktick := k.inBacktick } line).newLine =
      { inComment := (k.scan line).inComment, inBacktick := (k.scan line).inBacktick } := by
  have hrun := LineScan.newLine_mode_run line { scanner := k }
  have hscan : (k.scan line).inComment = (LineScan.run { scanner := k } line).scanner.inComment ∧
      (k.scan line).inBacktick = (LineScan.run { scanner := k } line).scanner.inBacktick := by
    unfold LineScanner.scan
    dsimp only
    split <;> exact ⟨rfl, rfl⟩
  rw [hscan.1, hscan.2]
  exact hrun.symm

/-! ### Places of a script -/

/-- A place of a script: the scanner's mode, whether it is the start of a line, and the text from there on. -/
structure Spot where
  mode : Mode
  fresh : Bool
  rest : List Char

namespace Spot

/-- One character read. -/
def next (a : Spot) : Spot :=
  match a.rest with
  | [] => a
  | c :: cs => if c = '\n' then ⟨a.mode.newLine, true, cs⟩ else ⟨a.mode.read c cs.head?, false, cs⟩

theorem rest_iterate (k : Nat) (a : Spot) : (next^[k] a).rest = a.rest.drop k := by
  induction k generalizing a with
  | zero => rfl
  | succ k ih =>
    rw [Function.iterate_succ_apply, ih]
    unfold next
    split
    · next h => simp [h]
    · next c cs h => split <;> simp [h]

/-- Reading characters of one line from a place inside it. -/
theorem iterate_row {row : List Char} (h : '\n' ∉ row) (m : Mode) (fresh : Bool) (cs : List Char)
    (hcs : cs = [] ∨ cs.head? = some '\n') :
    ∃ fresh', next^[row.length] ⟨m, fresh, row ++ cs⟩ = ⟨m.run row, fresh', cs⟩ := by
  induction row generalizing m fresh with
  | nil => exact ⟨fresh, rfl⟩
  | cons c row ih =>
    obtain ⟨hc, hrow⟩ : '\n' ≠ c ∧ '\n' ∉ row := by simpa using h
    have hnext : next ⟨m, fresh, c :: row ++ cs⟩ = ⟨m.read c row.head?, false, row ++ cs⟩ := by
      have hread : m.read c (row ++ cs).head? = m.read c row.head? := by
        cases row with
        | nil =>
          rcases hcs with rfl | hcs
          · rfl
          · exact m.read_congr c (by simp [hcs]) (by simp [hcs])
        | cons d row => rfl
      simp only [next, List.cons_append, Ne.symm hc, if_false, hread]
    rw [List.length_cons, Function.iterate_succ_apply, hnext, Mode.run]
    exact ih hrow _ _

/-- The carriage return before a line feed changes nothing that the next line sees. -/
theorem newLine_run_concat (m : Mode) (line : List Char) :
    (m.run (line ++ ['\r'])).newLine = (m.run line).newLine := by
  induction line generalizing m with
  | nil =>
    simp only [List.nil_append, Mode.run, List.head?_nil]
    unfold Mode.read
    split
    · rfl
    · split
      · rfl
      · split
        · split
          · rfl
          · split <;> rfl
        · simp +decide
  | cons c line ih =>
    have hread : m.read c (line ++ ['\r']).head? = m.read c line.head? := by
      cases line with
      | nil => exact m.read_congr c (by simp) (by simp)
      | cons d line => rfl
    rw [List.cons_append, Mode.run, Mode.run, hread, ih]

theorem next_newLine (m : Mode) (fresh : Bool) (cs : List Char) :
    next ⟨m, fresh, '\n' :: cs⟩ = ⟨m.newLine, true, cs⟩ := rfl

/-- The scanner between two lines, seen from the start of the next one. -/
def atLine (k : LineScanner) (cs : List Char) : Spot :=
  ⟨{ inComment := k.inComment, inBacktick := k.inBacktick }, true, cs⟩

/-- A whole line read, with what ends it. -/
theorem iterate_line (k : LineScanner) {row : List Char} (h : '\n' ∉ row) (cs : List Char) :
    next^[row.length + 1] (atLine k (row ++ '\n' :: cs)) = atLine (k.scan (Text.endedLine row.reverse)) cs := by
  obtain ⟨fresh, hrow⟩ := iterate_row h { inComment := k.inComment, inBacktick := k.inBacktick } true ('\n' :: cs)
    (.inr rfl)
  rw [Nat.add_comm, Function.iterate_add_apply, atLine, hrow, Function.iterate_one, next_newLine, atLine]
  congr 1
  rw [← LineScanner.newLine_run]
  rcases Text.endedLine_reverse row with hline | hline
  · rw [hline]
  · conv_lhs => rw [hline]
    exact newLine_run_concat _ _

/-- Reading on from the start, the scanner gets to the start of every line, in the mode of the scanner that has
read the lines above. -/
theorem reaches_line (k : LineScanner) {cs line : List Char} {n : Nat}
    (h : (Text.lineChars cs)[n]? = some line) :
    ∃ j, next^[j] (atLine k cs) =
      atLine (((Text.lineChars cs).take n).foldl LineScanner.scan k) (Text.fromLine n cs) := by
  induction cs using Text.rowInduction generalizing k n with
  | last row hrow =>
    cases n with
    | zero => exact ⟨0, rfl⟩
    | succ n =>
      rw [Text.lineChars_last hrow] at h
      split at h <;> simp at h
  | row row cs hrow ih =>
    cases n with
    | zero => exact ⟨0, rfl⟩
    | succ n =>
      rw [Text.lineChars_row hrow] at h ⊢
      obtain ⟨j, hj⟩ := ih (k.scan (Text.endedLine row.reverse)) (by simpa using h)
      refine ⟨j + (row.length + 1), ?_⟩
      rw [Function.iterate_add_apply, iterate_line k hrow, hj, Text.fromLine_row hrow]
      rfl

/-! ### Passing by -/

/-- Reading on from one spot gets to another, and the spots before it have a property. -/
def Passes (P : Spot → Prop) (a b : Spot) : Prop :=
  ∃ m, next^[m] a = b ∧ ∀ k < m, P (next^[k] a)

namespace Passes

variable {P : Spot → Prop} {a b c : Spot}

theorem refl (a : Spot) : Passes P a a :=
  ⟨0, rfl, fun _ hk => absurd hk (Nat.not_lt_zero _)⟩

theorem one (ha : P a) : Passes P a a.next := by
  refine ⟨1, rfl, fun k hk => ?_⟩
  obtain rfl : k = 0 := by omega
  exact ha

theorem trans (hab : Passes P a b) (hbc : Passes P b c) : Passes P a c := by
  obtain ⟨m, rfl, hm⟩ := hab
  obtain ⟨n, rfl, hn⟩ := hbc
  refine ⟨n + m, Function.iterate_add_apply next n m a, fun k hk => ?_⟩
  rcases Nat.lt_or_ge k m with hlt | hge
  · exact hm k hlt
  · have hsplit : k = (k - m) + m := by omega
    rw [hsplit, Function.iterate_add_apply]
    exact hn (k - m) (by omega)

/-- Reading one character and then on. -/
theorem head (ha : P a) (h : Passes P a.next b) : Passes P a b :=
  (one ha).trans h

/-- Every spot on the way has the property, as reading makes the rest of the text shorter. -/
theorem at_iterate (h : Passes P a b) {k : Nat} (hk : b.rest.length < (next^[k] a).rest.length) :
    P (next^[k] a) := by
  obtain ⟨m, rfl, hm⟩ := h
  rcases Nat.lt_or_ge k m with hlt | hge
  · exact hm k hlt
  · rw [rest_iterate, rest_iterate, List.length_drop, List.length_drop] at hk
    omega

end Passes

end Spot

end ScriptAgent
