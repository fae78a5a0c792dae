import ScriptAgent.Instrument.Compile
import ScriptAgent.Proofs.Instrument.Columns
import ScriptAgent.Proofs.Instrument.Spots
import ScriptAgent.Proofs.Script.Lexemes

/-!
# Hooks stay outside of texts and comments

The scanner that finds statements and the lexer of the script language read the same characters by different rules.
They agree on all that the scanner *understands*: comments in which no other comment opens, quoted texts that stay on
their line, back-tick texts and interpolations without backslashes, interpolations without back-ticks, and raw texts
that could have been quoted.  Then, wherever the scanner takes a place for code and a line, a semicolon or a line
comment begins there, the lexer gets to that place between two tokens.
-/

namespace ScriptAgent.Script

/-! ### Where the lexer is between tokens -/

/-- The lexer from a cursor on, between any two tokens. -/
def Cursor.visited (limit : Option Nat) : Nat → Cursor → List Cursor
  | 0, cur => [cur]
  | fuel + 1, cur =>
    match (cur.next limit).1.token with
    | .eof | .bad _ => [cur]
    | _ => cur :: Cursor.visited limit fuel (cur.next limit).2

/-- The lexer of a script between any two tokens. -/
def cursors (source : String) : List Cursor :=
  Cursor.visited none (source.length + 2) (.start source)

/-- The lexer gets to the place before `rest` between two tokens, outside of all texts and comments: at a token,
a blank or a comment that is not part of an interpolation. -/
def OutsideTexts (source : String) (rest : List Char) : Prop :=
  ∃ cur ∈ cursors source, cur.inText = false ∧ cur.braces = [] ∧ ∃ k, (skipSpace k cur.pos cur.rest).1 = rest

/-! ### What the scanner understands -/

/-- Whether a comment opens another one. -/
def opensComment : List Char → Bool
  | '/' :: '*' :: _ => true
  | '*' :: '/' :: _ => false
  | _ :: rest => opensComment rest
  | [] => false

/-- Whether characters begin with a comment that opens another one. -/
def beginsNested : List Char → Bool
  | '/' :: '*' :: rest => opensComment rest
  | _ => false

/-- Whether a comment that is skipped before the next token opens another one. -/
def skipsNested : Nat → Pos → List Char → Bool
  | 0, _, _ => false
  | fuel + 1, pos, cs =>
    beginsNested cs ||
    match skipOne pos cs with
    | some (rest, pos') => skipsNested fuel pos' rest
    | none => false

namespace Cursor

/-- The characters up to the end of the next token. -/
def taken (cur : Cursor) : List Char :=
  cur.rest.take (cur.rest.length - (cur.next none).2.rest.length)

/-- The text from the next token on. -/
def atToken (cur : Cursor) : List Char :=
  (skipSpace (cur.rest.length + 1) cur.pos cur.rest).1

/-- The characters of the next token. -/
def lexeme (cur : Cursor) : List Char :=
  cur.atToken.take (cur.atToken.length - (cur.next none).2.rest.length)

/-- Whether the scanner understands what comes next. -/
def understood (cur : Cursor) : Bool :=
  if cur.inText then !cur.taken.contains '\\'
  else if !cur.braces.isEmpty then !cur.taken.contains '\\' && !cur.taken.contains (Char.ofNat 96)
  else
    !skipsNested (cur.rest.length + 1) cur.pos cur.rest &&
      match cur.atToken with
      | '"' :: _ => !cur.lexeme.contains '\n'
      | '#' :: _ => cur.lexeme.count '"' ≤ 2 && !cur.lexeme.contains '\\' && !cur.lexeme.contains '\n'
      | c :: _ => c != Char.ofNat 96 || !cur.lexeme.contains '\\'
      | [] => true

/-- What is understood of a token that is no part of an interpolation, and of what is skipped before it. -/
theorem lexeme_of_understood {cur : Cursor} (htext : cur.inText = false) (hbraces : cur.braces = [])
    (h : cur.understood = true) :
    skipsNested (cur.rest.length + 1) cur.pos cur.rest = false ∧
      (cur.atToken.head? = some '"' → '\n' ∉ cur.lexeme) ∧
      (cur.atToken.head? = some (Char.ofNat 96) → '\\' ∉ cur.lexeme) ∧
      (cur.atToken.head? = some '#' → cur.lexeme.count '"' ≤ 2 ∧ '\\' ∉ cur.lexeme ∧ '\n' ∉ cur.lexeme) := by
  simp only [understood, htext, hbraces, List.isEmpty_nil, Bool.not_true, Bool.false_eq_true, if_false,
    Bool.and_eq_true, Bool.not_eq_true'] at h
  obtain ⟨hnested, hlexeme⟩ := h
  refine ⟨hnested, fun hhead => ?_, fun hhead => ?_, fun hhead => ?_⟩ <;>
    obtain ⟨cs, hcs⟩ := List.head?_eq_some_iff.mp hhead
  · simpa [hcs] using hlexeme
  · simpa [hcs] using hlexeme
  · simpa [hcs, and_assoc] using hlexeme

end Cursor

/-- Whether the scanner understands a script. -/
def understood (source : String) : Bool :=
  (cursors source).all Cursor.understood

/-! ### Places that are sound -/

/-- Where the scanner takes a place for code and a line, a semicolon or a line comment begins there, the lexer is
between tokens; and no quote is open where a line ends. -/
def Sound (source : String) (a : Spot) : Prop :=
  (a.mode = .code → (a.fresh = true ∨ a.rest.head? = some ';' ∨ ['/', '/'] <+: a.rest) → OutsideTexts source a.rest) ∧
    (a.mode.quote.isSome → a.rest.head? ≠ some '\n')

namespace Sound

variable {source : String} {m : Mode} {fresh : Bool} {rest : List Char}

theorem of_outside (h : OutsideTexts source rest) (hquote : m.quote = none) : Sound source ⟨m, fresh, rest⟩ :=
  ⟨fun _ _ => h, fun hsome => absurd hsome (by simp [hquote])⟩

theorem of_ne_code (hm : m ≠ .code) (hquote : m.quote = none) : Sound source ⟨m, fresh, rest⟩ :=
  ⟨fun hcode => absurd hcode hm, fun hsome => absurd hsome (by simp [hquote])⟩

/-- Inside a token of code, which has neither semicolons nor slashes behind its first character. -/
theorem of_inner {c : Char} (hsemi : c ≠ ';') (hslash : c ≠ '/') : Sound source ⟨.code, false, c :: rest⟩ := by
  refine ⟨fun _ h => ?_, nofun⟩
  rcases h with h | h | h
  · cases h
  · exact absurd (Option.some.inj h) hsemi
  · exact absurd (List.cons_prefix_cons.mp h).1.symm hslash

end Sound

/-- The scanner passes sound places only. -/
abbrev Soundly (source : String) : Spot → Spot → Prop :=
  Spot.Passes (Sound source)

section Passing

variable {source : String}

/-! ### Tokens of code -/

theorem read_plain {c : Char} (hc : isPlain c = true) {next : Option Char}
    (hslash : c = '/' → next ≠ some '/' ∧ next ≠ some '*') : Mode.code.read c next = .code := by
  simp only [isPlain, Bool.and_eq_true, bne_iff_ne] at hc
  obtain ⟨⟨⟨-, hquote⟩, hchar⟩, htick⟩ := hc
  by_cases h : c = '/'
  · obtain ⟨hline, hcomment⟩ := hslash h
    simp [Mode.read, Mode.code, hquote, hchar, htick, hline, hcomment]
  · simp [Mode.read, Mode.code, hquote, hchar, htick, h]

theorem next_of_ne {m : Mode} {fresh : Bool} {c : Char} {cs : List Char} (hc : c ≠ '\n') :
    Spot.next ⟨m, fresh, c :: cs⟩ = ⟨m.read c cs.head?, false, cs⟩ := by
  simp [Spot.next, hc]

variable (source) in
theorem passes_quiet {inner : List Char} (h : ∀ c ∈ inner, isQuiet c = true) (rest : List Char) :
    Soundly source ⟨.code, false, inner ++ rest⟩ ⟨.code, false, rest⟩ := by
  induction inner with
  | nil => exact .refl _
  | cons c inner ih =>
    obtain ⟨hc, hinner⟩ := List.forall_mem_cons.mp h
    have hplain := isPlain_of_isQuiet hc
    simp only [isQuiet, Bool.and_eq_true, bne_iff_ne] at hc
    obtain ⟨⟨⟨⟨⟨hline, hsemi⟩, hslash⟩, -⟩, -⟩, -⟩ := hc
    refine .head (.of_inner hsemi hslash) ?_
    rw [List.cons_append, next_of_ne hline, read_plain hplain (fun h => absurd h hslash)]
    exact ih hinner

/-- A token of plain and quiet characters. -/
theorem passes_plain {c : Char} {inner rest : List Char} {fresh : Bool} (hout : OutsideTexts source (c :: inner ++ rest))
    (hc : isPlain c = true) (hinner : ∀ d ∈ inner, isQuiet d = true)
    (hslash : c = '/' → (inner ++ rest).head? ≠ some '/' ∧ (inner ++ rest).head? ≠ some '*') :
    Soundly source ⟨.code, fresh, c :: inner ++ rest⟩ ⟨.code, false, rest⟩ := by
  have hline : c ≠ '\n' := by
    simp only [isPlain, Bool.and_eq_true, bne_iff_ne] at hc
    exact hc.1.1.1
  refine .head (.of_outside hout rfl) ?_
  rw [List.cons_append, next_of_ne hline, read_plain hc hslash]
  exact passes_quiet source hinner rest

/-! ### Quoted texts -/

/-- What a literal takes ends before what follows it. -/
theorem Reads.suffix {kind : TextKind} {escaped : Bool} {cs rest : List Char} {ending : TextEnd}
    (h : Reads kind escaped cs ending rest) : rest <:+ cs ∧ rest.length < cs.length := by
  have one {c : Char} {cs rest : List Char} (h : rest <:+ cs) : rest <:+ c :: cs ∧ rest.length < (c :: cs).length :=
    ⟨h.trans (List.suffix_cons c cs), Nat.lt_succ_of_le h.length_le⟩
  induction h with
  | closed => exact one List.suffix_rfl
  | interpolation => exact one List.suffix_rfl
  | doubled _ ih => exact one (one ih.1).1
  | escape _ _ ih | escaped _ _ ih | lineEnd _ ih | continued _ _ ih | lineFeed _ _ ih | other _ _ _ _ ih => exact one ih.1

/-- The first of the characters that a text takes. -/
theorem taken_cons {c : Char} {cs taken rest : List Char} (h : c :: cs = taken ++ rest) (hrest : rest <:+ cs) :
    ∃ taken', taken = c :: taken' ∧ cs = taken' ++ rest := by
  cases taken with
  | nil =>
    have hlength := hrest.length_le
    rw [← show c :: cs = rest from h] at hlength
    exact absurd hlength (by simp)
  | cons d taken' =>
    obtain ⟨rfl, rfl⟩ := List.cons.inj h
    exact ⟨taken', rfl, rfl⟩

/-- A character literal stays on its line. -/
theorem Reads.notMem_of_char {escaped : Bool} {cs rest : List Char} {ending : TextEnd}
    (h : Reads .char escaped cs ending rest) {taken : List Char} (hcs : cs = taken ++ rest) : '\n' ∉ taken := by
  have cons {c : Char} {taken : List Char} (hc : c ≠ '\n') (h : '\n' ∉ taken) : '\n' ∉ c :: taken := by
    simp [Ne.symm hc, h]
  induction h generalizing taken with
  | @closed rest _ =>
    obtain ⟨taken, rfl, htail⟩ := taken_cons hcs List.suffix_rfl
    have hnil : taken = [] := by simpa using htail
    exact hnil ▸ by decide
  | @interpolation rest hkind _ => cases hkind
  | doubled h ih =>
    obtain ⟨taken, rfl, hfirst⟩ := taken_cons hcs (h.suffix.1.trans (List.suffix_cons _ _))
    obtain ⟨taken, rfl, htail⟩ := taken_cons hfirst h.suffix.1
    exact cons (by decide) (cons (by decide) (ih htail))
  | escape _ h ih =>
    obtain ⟨taken, rfl, htail⟩ := taken_cons hcs h.suffix.1
    exact cons (by decide) (ih htail)
  | escaped hc h ih =>
    obtain ⟨taken, rfl, htail⟩ := taken_cons hcs h.suffix.1
    exact cons hc (ih htail)
  | lineEnd h ih =>
    obtain ⟨taken, rfl, htail⟩ := taken_cons hcs h.suffix.1
    exact cons (by decide) (ih htail)
  | continued hkind => cases hkind
  | lineFeed hkind => cases hkind
  | other _ hline _ h ih =>
    obtain ⟨taken, rfl, htail⟩ := taken_cons hcs h.suffix.1
    exact cons hline (ih htail)

/-- The scanner inside a quoted text. -/
def quoting (kind : TextKind) (escaped : Bool) : Mode :=
  { quote := some kind.close, skip := escaped }

/-- Inside a quoted text, where its line goes on. -/
theorem sound_quoting {kind : TextKind} {escaped : Bool} {c : Char} {cs : List Char} (hc : c ≠ '\n') :
    Sound source ⟨quoting kind escaped, false, c :: cs⟩ :=
  ⟨fun hcode => absurd (congrArg Mode.quote hcode) (Option.some_ne_none _), fun _ h => hc (Option.some.inj h)⟩

/-- One character of a quoted text, whose line goes on. -/
theorem passes_quoting {kind : TextKind} {escaped : Bool} {c : Char} {cs : List Char} {m : Mode} {b : Spot}
    (hc : c ≠ '\n') (hread : (quoting kind escaped).read c cs.head? = m) (h : Soundly source ⟨m, false, cs⟩ b) :
    Soundly source ⟨quoting kind escaped, false, c :: cs⟩ b := by
  refine .head (sound_quoting hc) ?_
  rw [next_of_ne hc, hread]
  exact h

/-- The quote that stands at both ends of a text opens it. -/
theorem read_opening {kind : TextKind} (hkind : kind = .quoted ∨ kind = .char) (next : Option Char) :
    Mode.code.read kind.close next = quoting kind false := by
  rcases hkind with rfl | rfl <;> simp [Mode.read, quoting, Mode.code, TextKind.quoted, TextKind.char]

/-- The quote that stands at both ends of a text closes it. -/
theorem read_closing {kind : TextKind} (hkind : kind = .quoted ∨ kind = .char) (next : Option Char) :
    (quoting kind false).read kind.close next = .code := by
  rcases hkind with rfl | rfl <;> simp [Mode.read, quoting, Mode.code, TextKind.quoted, TextKind.char]

theorem passes_quoted {kind : TextKind} (hkind : kind = .quoted ∨ kind = .char) {escaped : Bool} {cs rest : List Char}
    (h : Reads kind escaped cs .closed rest) {taken : List Char} (hcs : cs = taken ++ rest) (hline : '\n' ∉ taken) :
    Soundly source ⟨quoting kind escaped, false, cs⟩ ⟨.code, false, rest⟩ := by
  have hverbatim : kind.verbatim = false := by rcases hkind with rfl | rfl <;> rfl
  have hclose : kind.close ≠ '\n' ∧ kind.close ≠ ';' ∧ kind.close ≠ '/' := by
    rcases hkind with rfl | rfl <;> decide
  generalize hending : TextEnd.closed = ending at h
  induction h generalizing taken with
  | closed => exact passes_quoting hclose.1 (read_closing hkind _) (.refl _)
  | interpolation => cases hending
  | @doubled rest after _ h ih =>
    -- the scanner leaves the text at the first quote, and the second one opens another text
    have hsuffix := h.suffix.1
    obtain ⟨taken, rfl, hfirst⟩ := taken_cons hcs (hsuffix.trans (List.suffix_cons _ _))
    obtain ⟨taken, rfl, htail⟩ := taken_cons hfirst hsuffix
    refine passes_quoting hclose.1 (read_closing hkind _) (.head (.of_inner hclose.2.1 hclose.2.2) ?_)
    rw [next_of_ne hclose.1, read_opening hkind]
    exact ih htail (fun hmem => hline (List.mem_cons_of_mem _ (List.mem_cons_of_mem _ hmem))) hending
  | escape _ h ih =>
    obtain ⟨taken, rfl, htail⟩ := taken_cons hcs h.suffix.1
    refine passes_quoting (by decide) (m := quoting kind true) (by simp [Mode.read, quoting]) ?_
    exact ih htail (fun hmem => hline (List.mem_cons_of_mem _ hmem)) hending
  | escaped hc h ih =>
    obtain ⟨taken, rfl, htail⟩ := taken_cons hcs h.suffix.1
    refine passes_quoting hc (m := quoting kind false) (by simp [Mode.read, quoting]) ?_
    exact ih htail (fun hmem => hline (List.mem_cons_of_mem _ hmem)) hending
  | @lineEnd escaped rest after _ h ih =>
    -- the line feed is one of the characters taken
    obtain ⟨taken, rfl, htail⟩ := taken_cons hcs h.suffix.1
    cases taken with
    | nil =>
      have hlength := h.suffix.2
      rw [htail] at hlength
      simp at hlength
    | cons d taken =>
      rw [← (List.cons.inj htail).1] at hline
      simp at hline
  | continued _ h ih =>
    obtain ⟨taken, rfl, -⟩ := taken_cons hcs h.suffix.1
    simp at hline
  | lineFeed hkind' =>
    rw [hverbatim] at hkind'
    cases hkind'
  | @other c rest after _ hc hnewline hescape h ih =>
    obtain ⟨taken, rfl, htail⟩ := taken_cons hcs h.suffix.1
    have hback : c ≠ '\\' := by simpa [hverbatim] using hescape
    refine passes_quoting hnewline (m := quoting kind false) (by simp [Mode.read, quoting, hc, hback]) ?_
    exact ih htail (fun hmem => hline (List.mem_cons_of_mem _ hmem)) hending

/-- A quoted text from its quote on. -/
theorem passes_literal {kind : TextKind} (hkind : kind = .quoted ∨ kind = .char) {rest after taken : List Char}
    (hreads : Reads kind false rest .closed after) (hrest : rest = taken ++ after) (hline : '\n' ∉ taken)
    (hout : OutsideTexts source (kind.close :: rest)) (fresh : Bool) :
    Soundly source ⟨.code, fresh, kind.close :: rest⟩ ⟨.code, false, after⟩ := by
  refine .head (.of_outside hout rfl) ?_
  rw [next_of_ne (by rcases hkind with rfl | rfl <;> decide), read_opening hkind]
  exact passes_quoted hkind hreads hrest hline

/-! ### Back-tick texts -/

/-- The scanner inside a back-tick text. -/
def backticking : Mode :=
  { inBacktick := true }

theorem next_backticking {c : Char} (htick : c ≠ Char.ofNat 96) (hback : c ≠ '\\') (fresh : Bool) (cs : List Char) :
    ∃ fresh', Spot.next ⟨backticking, fresh, c :: cs⟩ = ⟨backticking, fresh', cs⟩ := by
  by_cases hline : c = '\n'
  · subst hline
    exact ⟨true, rfl⟩
  · refine ⟨false, ?_⟩
    rw [next_of_ne hline]
    simp [Mode.read, backticking, htick, hback]

/-- One character of a back-tick text that goes on. -/
theorem passes_ticked {c : Char} {cs rest : List Char} {m : Mode} (htick : c ≠ Char.ofNat 96) (hback : c ≠ '\\')
    (h : ∀ fresh, ∃ fresh', Soundly source ⟨backticking, fresh, cs⟩ ⟨m, fresh', rest⟩) (fresh : Bool) :
    ∃ fresh', Soundly source ⟨backticking, fresh, c :: cs⟩ ⟨m, fresh', rest⟩ := by
  obtain ⟨fresh₁, hnext⟩ := next_backticking htick hback fresh cs
  obtain ⟨fresh₂, hpasses⟩ := h fresh₁
  refine ⟨fresh₂, .head (.of_ne_code (by decide) rfl) ?_⟩
  rw [hnext]
  exact hpasses

variable (source) in
/-- Characters among which neither a back-tick nor a backslash is stay inside the text. -/
theorem passes_backticking {taken : List Char} (htick : Char.ofNat 96 ∉ taken) (hback : '\\' ∉ taken) (rest : List Char)
    (fresh : Bool) :
    ∃ fresh', Soundly source ⟨backticking, fresh, taken ++ rest⟩ ⟨backticking, fresh', rest⟩ := by
  induction taken generalizing fresh with
  | nil => exact ⟨fresh, .refl _⟩
  | cons c taken ih =>
    simp only [List.mem_cons, not_or] at htick hback
    exact passes_ticked (Ne.symm htick.1) (Ne.symm hback.1) (ih htick.2 hback.2) fresh

variable (source) in
theorem passes_backtick {cs rest : List Char} {ending : TextEnd} (h : Reads .backtick false cs ending rest)
    {taken : List Char} (hcs : cs = taken ++ rest) (hback : '\\' ∉ taken) (fresh : Bool) :
    ∃ fresh', Soundly source ⟨backticking, fresh, cs⟩
      ⟨if ending = .closed then .code else backticking, fresh', rest⟩ := by
  generalize hescaped : false = escaped at h
  induction h generalizing taken fresh with
  | @closed rest _ =>
    refine ⟨false, .head (.of_ne_code (by decide) rfl) ?_⟩
    rw [next_of_ne (by decide)]
    exact .refl _
  | interpolation => exact passes_ticked (by decide) (by decide) (fun fresh' => ⟨fresh', .refl _⟩) fresh
  | @doubled rest after ending h ih =>
    -- the scanner leaves the text at the first back-tick, and the second one opens another text
    have hsuffix := h.suffix.1
    obtain ⟨taken, rfl, hfirst⟩ := taken_cons hcs (hsuffix.trans (List.suffix_cons _ _))
    obtain ⟨taken, rfl, htail⟩ := taken_cons hfirst hsuffix
    have hrest : '\\' ∉ taken := fun hmem => hback (List.mem_cons_of_mem _ (List.mem_cons_of_mem _ hmem))
    obtain ⟨fresh', hpasses⟩ := ih htail hrest false rfl
    refine ⟨fresh', .head (.of_ne_code (by decide) rfl) ?_⟩
    rw [next_of_ne (by decide)]
    refine .head (.of_inner (by decide) (by decide)) ?_
    rw [next_of_ne (by decide)]
    exact hpasses
  | escape hkind => cases hkind
  | escaped => cases hescaped
  | lineEnd h ih =>
    obtain ⟨taken, rfl, htail⟩ := taken_cons hcs h.suffix.1
    have hrest : '\\' ∉ taken := fun hmem => hback (List.mem_cons_of_mem _ hmem)
    exact passes_ticked (by decide) (by decide) (ih htail hrest · hescaped) fresh
  | continued => cases hescaped
  | lineFeed _ h ih =>
    obtain ⟨taken, rfl, htail⟩ := taken_cons hcs h.suffix.1
    have hrest : '\\' ∉ taken := fun hmem => hback (List.mem_cons_of_mem _ hmem)
    exact passes_ticked (by decide) (by decide) (ih htail hrest · rfl) fresh
  | other hclose _ _ h ih =>
    obtain ⟨taken, rfl, htail⟩ := taken_cons hcs h.suffix.1
    simp only [List.mem_cons, not_or] at hback
    exact passes_ticked hclose (Ne.symm hback.1) (ih htail hback.2 · rfl) fresh

/-! ### Blanks and comments -/

/-- The scanner inside a block comment. -/
def commenting : Mode :=
  { inComment := true }

/-- The scanner between two tokens: it reads code, or a line comment ends here, or the script does, outside of
quotes. -/
def Ready (m : Mode) (cs : List Char) : Prop :=
  m = .code ∨ m = { hidden := true } ∧ cs.head? = some '\n' ∨ cs = [] ∧ m.quote = none

theorem Ready.quote_eq_none {m : Mode} {cs : List Char} (h : Ready m cs) : m.quote = none := by
  rcases h with rfl | ⟨rfl, -⟩ | ⟨-, hquote⟩
  · rfl
  · rfl
  · exact hquote

/-- Before a token the scanner reads code. -/
theorem Ready.eq_code {m : Mode} {cs : List Char} {pos : Pos} (h : Ready m cs) (hskip : skipOne pos cs = none)
    (hne : cs ≠ []) : m = .code := by
  rcases h with hcode | ⟨-, hline⟩ | ⟨hnil, -⟩
  · exact hcode
  · obtain ⟨rest, rfl⟩ := List.head?_eq_some_iff.mp hline
    cases hskip
  · exact absurd hnil hne

variable (source) in
theorem passes_line (pos : Pos) (cs : List Char) (fresh : Bool) :
    ∃ fresh', Soundly source ⟨{ hidden := true }, fresh, cs⟩ ⟨{ hidden := true }, fresh', (skipLine pos cs).1⟩ ∧
      Ready { hidden := true } (skipLine pos cs).1 := by
  fun_induction skipLine pos cs generalizing fresh with
  | case1 => exact ⟨fresh, .refl _, .inr (.inr ⟨rfl, rfl⟩)⟩
  | case2 => exact ⟨fresh, .refl _, .inr (.inl ⟨rfl, rfl⟩)⟩
  | case3 pos c rest hline ih =>
    obtain ⟨fresh', hpasses, hready⟩ := ih false
    refine ⟨fresh', .head (.of_ne_code (by decide) rfl) ?_, hready⟩
    rw [next_of_ne (fun h => hline h)]
    exact hpasses

variable (source) in
theorem passes_comment (pos : Pos) {cs : List Char} (h : opensComment cs = false) (fresh : Bool) :
    ∃ m fresh', Soundly source ⟨commenting, fresh, cs⟩ ⟨m, fresh', (skipComment 1 pos cs).1⟩ ∧
      Ready m (skipComment 1 pos cs).1 := by
  generalize hdepth : 1 = depth
  fun_induction skipComment depth pos cs generalizing fresh with
  | case1 => exact ⟨commenting, fresh, .refl _, .inr (.inr ⟨rfl, rfl⟩)⟩
  | case2 => cases h
  | case3 depth pos rest hone =>
    -- the slash behind the star is passed over
    have hstar : commenting.read '*' ('/' :: rest).head? = { skip := true } := rfl
    refine ⟨.code, false, .head (.of_ne_code (by decide) rfl) ?_, .inl rfl⟩
    rw [next_of_ne (by decide), hstar]
    refine .head (.of_ne_code (by decide) rfl) ?_
    rw [next_of_ne (by decide)]
    exact .refl _
  | case4 depth pos rest hone => omega
  | case5 depth pos rest ih =>
    obtain ⟨m, fresh', hpasses, hready⟩ := ih h true hdepth
    exact ⟨m, fresh', .head (.of_ne_code (by decide) rfl) hpasses, hready⟩
  | case6 depth pos c rest hopen hclose hline ih =>
    have hinner : opensComment rest = false := by
      rwa [opensComment.eq_3 _ _ hopen hclose] at h
    obtain ⟨m, fresh', hpasses, hready⟩ := ih hinner false hdepth
    refine ⟨m, fresh', .head (.of_ne_code (by decide) rfl) ?_, hready⟩
    rw [next_of_ne (fun h => hline h)]
    have hread : commenting.read c rest.head? = commenting := by
      have hstar : ¬(c = '*' ∧ rest.head? = some '/') := by
        rintro ⟨rfl, hslash⟩
        cases rest with
        | nil => cases hslash
        | cons d rest =>
          obtain rfl := Option.some.inj hslash
          exact hclose rest rfl rfl
      simp [Mode.read, commenting, hstar]
    rw [hread]
    exact hpasses

/-- One blank or comment. -/
theorem passes_one {pos pos' : Pos} {cs rest : List Char} {fresh : Bool} (hskip : skipOne pos cs = some (rest, pos'))
    (hout : OutsideTexts source cs) (hcomment : ∀ inner, cs = '/' :: '*' :: inner → opensComment inner = false) :
    ∃ m fresh', Soundly source ⟨.code, fresh, cs⟩ ⟨m, fresh', rest⟩ ∧ Ready m rest := by
  unfold skipOne at hskip
  split at hskip
  · cases hskip
    exact ⟨.code, true, .head (.of_outside hout rfl) (.refl _), .inl rfl⟩
  · next after =>
    obtain ⟨fresh', hpasses, hready⟩ := passes_line source pos.advance.advance after false
    obtain rfl : (skipLine pos.advance.advance after).1 = rest := congrArg Prod.fst (Option.some.inj hskip)
    refine ⟨_, fresh', .head (.of_outside hout rfl) ?_, hready⟩
    -- the second slash is hidden already
    rw [next_of_ne (by decide)]
    refine .head (.of_ne_code (by simp [Mode.read, Mode.code]) rfl) ?_
    rw [next_of_ne (by decide)]
    exact hpasses
  · next after =>
    obtain ⟨m, fresh', hpasses, hready⟩ :=
      passes_comment source pos.advance.advance (hcomment after rfl) false
    obtain rfl : (skipComment 1 pos.advance.advance after).1 = rest := congrArg Prod.fst (Option.some.inj hskip)
    refine ⟨m, fresh', .head (.of_outside hout rfl) ?_, hready⟩
    rw [next_of_ne (by decide)]
    refine .head (.of_ne_code (by simp [Mode.read, Mode.code]) rfl) ?_
    rw [next_of_ne (by decide)]
    exact hpasses
  · next c after hline hhidden hopen =>
    split at hskip
    · next hblank =>
      cases hskip
      have hplain : isPlain c = true := by
        simp only [isPlain, Bool.and_eq_true, bne_iff_ne]
        refine ⟨⟨⟨hline, ?_⟩, ?_⟩, ?_⟩ <;> rintro rfl <;> exact absurd hblank (by decide)
      have hslash : c = '/' → rest.head? ≠ some '/' ∧ rest.head? ≠ some '*' := by
        rintro rfl
        exact absurd hblank (by decide)
      refine ⟨.code, false, .head (.of_outside hout rfl) ?_, .inl rfl⟩
      rw [next_of_ne hline, read_plain hplain hslash]
      exact .refl _
    · cases hskip
  · cases hskip

/-- All blanks and comments before a token. -/
theorem passes_space {fuel : Nat} {pos : Pos} {cs : List Char} (hout : ∀ k, OutsideTexts source (skipSpace k pos cs).1)
    (hnested : skipsNested fuel pos cs = false) {m : Mode} (hready : Ready m cs) (fresh : Bool) :
    ∃ m' fresh', Soundly source ⟨m, fresh, cs⟩ ⟨m', fresh', (skipSpace fuel pos cs).1⟩ ∧
      Ready m' (skipSpace fuel pos cs).1 := by
  induction fuel generalizing pos cs m fresh with
  | zero => exact ⟨m, fresh, .refl _, hready⟩
  | succ fuel ih =>
    rw [skipSpace_succ]
    cases hskip : skipOne pos cs with
    | none => exact ⟨m, fresh, .refl _, hready⟩
    | some reached =>
      obtain ⟨rest, pos'⟩ := reached
      rw [skipsNested, hskip, Bool.or_eq_false_iff] at hnested
      have hafter (k : Nat) : OutsideTexts source (skipSpace k pos' rest).1 := by
        have := hout (k + 1)
        rwa [skipSpace_succ, hskip] at this
      have hfirst : ∃ m₁ fresh₁, Soundly source ⟨m, fresh, cs⟩ ⟨m₁, fresh₁, rest⟩ ∧ Ready m₁ rest := by
        rcases hready with rfl | ⟨rfl, hline⟩ | ⟨rfl, -⟩
        · refine passes_one hskip (hout 0) fun inner heq => ?_
          subst heq
          exact hnested.1
        · -- the line comment ends
          cases cs with
          | nil => cases hline
          | cons c cs =>
            obtain rfl := Option.some.inj hline
            cases hskip
            exact ⟨.code, true, .head (.of_ne_code (by decide) rfl) (.refl _), .inl rfl⟩
        · cases hskip
      obtain ⟨m₁, fresh₁, hpasses₁, hready₁⟩ := hfirst
      obtain ⟨m₂, fresh₂, hpasses₂, hready₂⟩ := ih hafter hnested.2 hready₁ fresh₁
      exact ⟨m₂, fresh₂, hpasses₁.trans hpasses₂, hready₂⟩

/-! ### One token -/

theorem take_append_suffix {cs rest : List Char} (h : rest <:+ cs) :
    cs.take (cs.length - rest.length) ++ rest = cs := by
  obtain ⟨taken, rfl⟩ := h
  rw [List.length_append, Nat.add_sub_cancel, List.take_left]

theorem Lexeme.suffix {cur cur' : Cursor} {cs : List Char} (h : Lexeme cur cur' cs) :
    cur'.rest <:+ cs ∧ cur'.rest.length < cs.length := by
  have behind {c : Char} {taken rest : List Char} : rest <:+ c :: taken ++ rest ∧ rest.length < (c :: taken ++ rest).length :=
    ⟨List.suffix_append _ _, by rw [List.length_append, List.length_cons]; omega⟩
  cases h with
  | plain _ _ hcs _ => exact hcs ▸ behind
  | quoted _ hcs h _ =>
    rw [hcs]
    exact ⟨h.suffix.1.trans (List.suffix_cons _ _), Nat.lt_succ_of_lt h.suffix.2⟩
  | @backtick lead rest _ hcs h _ =>
    have hlead := @behind (Char.ofNat 96) lead rest
    rw [hcs]
    exact ⟨h.suffix.1.trans hlead.1, Nat.lt_trans h.suffix.2 hlead.2⟩
  | @interpolation lead rest _ hcs h _ _ =>
    have hlead := @behind (Char.ofNat 96) lead rest
    rw [hcs]
    exact ⟨h.suffix.1.trans hlead.1, Nat.lt_trans h.suffix.2 hlead.2⟩
  | @raw signs body hsigns hcs _ =>
    have hsplit : cs = List.replicate signs '#' ++ ('"' :: body ++ '"' :: List.replicate signs '#') ++ cur'.rest := by
      rw [hcs]
      simp
    rw [hsplit]
    exact ⟨List.suffix_append _ _, by simp; omega⟩

variable (source) in
/-- The body of a raw text that could have been quoted, up to the quote that closes it. -/
theorem passes_rawBody {body : List Char} (hquote : '"' ∉ body) (hback : '\\' ∉ body) (hline : '\n' ∉ body)
    (rest : List Char) :
    Soundly source ⟨quoting .quoted false, false, body ++ '"' :: rest⟩ ⟨.code, false, rest⟩ := by
  induction body with
  | nil => exact passes_quoting (by decide) (read_closing (.inl rfl) _) (.refl _)
  | cons c body ih =>
    simp only [List.mem_cons, not_or] at hquote hback hline
    refine passes_quoting (Ne.symm hline.1) (m := quoting .quoted false) ?_ (ih hquote.2 hback.2 hline.2)
    simp [Mode.read, quoting, TextKind.quoted, Ne.symm hquote.1, Ne.symm hback.1]

/-- A raw text that could have been quoted. -/
theorem passes_raw {signs : Nat} {body rest : List Char} (hquote : '"' ∉ body) (hback : '\\' ∉ body)
    (hline : '\n' ∉ body) {fresh : Bool}
    (hout : OutsideTexts source ('#' :: (List.replicate signs '#' ++ '"' :: (body ++ '"' ::
      (List.replicate (signs + 1) '#' ++ rest))))) :
    Soundly source ⟨.code, fresh, '#' :: (List.replicate signs '#' ++ '"' :: (body ++ '"' ::
      (List.replicate (signs + 1) '#' ++ rest)))⟩ ⟨.code, false, rest⟩ := by
  have hquiet (n : Nat) : ∀ c ∈ List.replicate n '#', isQuiet c = true := by
    intro c hc
    rw [List.eq_of_mem_replicate hc]
    rfl
  have hbody := passes_rawBody source hquote hback hline (List.replicate (signs + 1) '#' ++ rest)
  have hclosing := passes_quiet source (hquiet (signs + 1)) rest
  refine (passes_plain hout (by decide) (hquiet signs) (fun h => absurd h (by decide))).trans ?_
  refine .head (.of_inner (by decide) (by decide)) ?_
  rw [next_of_ne (by decide)]
  exact hbody.trans hclosing

/-- A raw text with two quotes has none in its body. -/
theorem notMem_of_count_quote {signs : Nat} {body : List Char}
    (h : (List.replicate signs '#' ++ '"' :: body ++ '"' :: List.replicate signs '#').count '"' ≤ 2) : '"' ∉ body := by
  rw [← List.count_eq_zero]
  simp only [List.count_append, List.count_cons, List.count_replicate] at h
  simp at h
  omega

/-- A slash that begins a token begins no comment. -/
theorem head?_of_skipOne_slash {pos : Pos} {cs : List Char} (hskip : skipOne pos ('/' :: cs) = none) :
    cs.head? ≠ some '/' ∧ cs.head? ≠ some '*' := by
  cases cs with
  | nil => simp
  | cons d cs =>
    refine ⟨fun h => ?_, fun h => ?_⟩ <;>
    · obtain rfl := Option.some.inj h
      cases hskip

/-- How the scanner stands where the lexer is between two tokens. -/
def Agree (cur : Cursor) (m : Mode) : Prop :=
  cur.inText = false ∧ cur.braces = [] ∧ m = .code ∨
    m = backticking ∧ (cur.inText = true ∧ cur.braces = [] ∨ cur.inText = false ∧ ∃ n, cur.braces = [n])

theorem Agree.of_follows {cur cur' : Cursor} (h : cur.Follows cur') (hbraces : cur.braces = []) : Agree cur' .code :=
  .inl ⟨(h.outside hbraces).2, (h.outside hbraces).1, rfl⟩

/-- A back-tick text from its back-tick on. -/
theorem passes_opened {lead rest after lexeme : List Char} {ending : TextEnd}
    (hlead : lead ∈ [[], ['\n'], ['\r', '\n'], ['\r']]) (hreads : Reads .backtick false rest ending after)
    (hsplit : Char.ofNat 96 :: lead ++ rest = lexeme ++ after) (hback : '\\' ∉ lexeme)
    (hout : OutsideTexts source (Char.ofNat 96 :: lead ++ rest)) (fresh : Bool) :
    ∃ fresh', Soundly source ⟨.code, fresh, Char.ofNat 96 :: lead ++ rest⟩
      ⟨if ending = .closed then .code else backticking, fresh', after⟩ := by
  obtain ⟨taken, htaken⟩ : ∃ taken, rest = taken ++ after := by
    obtain ⟨taken, h⟩ := hreads.suffix.1
    exact ⟨taken, h.symm⟩
  have hlexeme : lexeme = Char.ofNat 96 :: lead ++ taken := by
    rw [htaken, ← List.append_assoc] at hsplit
    exact (List.append_cancel_right hsplit).symm
  have hrest : '\\' ∉ taken := fun hmem => hback (by rw [hlexeme]; exact List.mem_append_right _ hmem)
  have hleads : ∀ lead ∈ [[], ['\n'], ['\r', '\n'], ['\r']], Char.ofNat 96 ∉ lead ∧ '\\' ∉ lead := by decide
  have hmodes := hleads lead hlead
  obtain ⟨fresh₁, hpasses₁⟩ := passes_backticking source hmodes.1 hmodes.2 rest false
  obtain ⟨fresh₂, hpasses₂⟩ := passes_backtick source hreads htaken hrest fresh₁
  refine ⟨fresh₂, .head (.of_outside hout rfl) ?_⟩
  rw [List.cons_append, next_of_ne (by decide)]
  exact hpasses₁.trans hpasses₂

/-- A token that is no part of an interpolation. -/
theorem passes_lexeme {cur cur' : Cursor} {cs : List Char} (h : Lexeme cur cur' cs) (hbraces : cur.braces = [])
    (hout : OutsideTexts source cs) {pos : Pos} (hskip : skipOne pos cs = none)
    (hquoted : cs.head? = some '"' → '\n' ∉ cs.take (cs.length - cur'.rest.length))
    (htick : cs.head? = some (Char.ofNat 96) → '\\' ∉ cs.take (cs.length - cur'.rest.length))
    (hraw : cs.head? = some '#' → (cs.take (cs.length - cur'.rest.length)).count '"' ≤ 2 ∧
      '\\' ∉ cs.take (cs.length - cur'.rest.length) ∧ '\n' ∉ cs.take (cs.length - cur'.rest.length)) (fresh : Bool) :
    ∃ m fresh', Soundly source ⟨.code, fresh, cs⟩ ⟨m, fresh', cur'.rest⟩ ∧ Agree cur' m := by
  have hsplit := take_append_suffix h.suffix.1
  generalize cs.take (cs.length - cur'.rest.length) = lexeme at hquoted htick hraw hsplit
  cases h with
  | @plain c inner hc hinner hcs hfollows =>
    subst hcs
    have hslash : c = '/' → (inner ++ cur'.rest).head? ≠ some '/' ∧ (inner ++ cur'.rest).head? ≠ some '*' := by
      rintro rfl
      exact head?_of_skipOne_slash hskip
    exact ⟨.code, false, passes_plain hout hc hinner hslash, .of_follows hfollows hbraces⟩
  | quoted hkind hcs hreads hfollows =>
    subst hcs
    obtain ⟨taken, rfl, hrest⟩ := taken_cons hsplit.symm hreads.suffix.1
    have hline : '\n' ∉ taken := by
      rcases hkind with rfl | rfl
      · exact fun hmem => hquoted rfl (List.mem_cons_of_mem _ hmem)
      · exact hreads.notMem_of_char hrest
    exact ⟨.code, false, passes_literal hkind hreads hrest hline hout fresh, .of_follows hfollows hbraces⟩
  | backtick hlead hcs hreads hfollows =>
    subst hcs
    obtain ⟨fresh', hpasses⟩ := passes_opened hlead hreads hsplit.symm (htick rfl) hout fresh
    exact ⟨_, fresh', hpasses, .of_follows hfollows hbraces⟩
  | interpolation hlead hcs hreads hopened htext =>
    subst hcs
    obtain ⟨fresh', hpasses⟩ := passes_opened hlead hreads hsplit.symm (htick rfl) hout fresh
    exact ⟨_, fresh', hpasses, .inr ⟨rfl, .inr ⟨htext, 0, hbraces ▸ hopened⟩⟩⟩
  | @raw signs body hsigns hcs hfollows =>
    obtain ⟨n, rfl⟩ : ∃ n, signs = n + 1 := ⟨signs - 1, by omega⟩
    have hlexeme : lexeme = List.replicate (n + 1) '#' ++ '"' :: body ++ '"' :: List.replicate (n + 1) '#' := by
      refine List.append_cancel_right (hsplit.trans (hcs.trans ?_))
      simp
    have hshape : cs = '#' :: (List.replicate n '#' ++ '"' :: (body ++ '"' ::
        (List.replicate (n + 1) '#' ++ cur'.rest))) := by
      simpa [List.replicate_succ] using hcs
    subst hshape
    obtain ⟨hcount, hback, hline⟩ := hraw rfl
    rw [hlexeme] at hcount hback hline
    have hmem {c : Char} (h : c ∉ List.replicate (n + 1) '#' ++ '"' :: body ++ '"' :: List.replicate (n + 1) '#') :
        c ∉ body := fun hmem => h (by simp [hmem])
    exact ⟨.code, false, passes_raw (notMem_of_count_quote hcount) (hmem hback) (hmem hline) hout,
      .of_follows hfollows hbraces⟩

/-! ### From token to token -/

/-- How the scanner stands behind the token that comes next: at the end of the script, where no quote is open, or
before a shorter rest and still in agreement with the lexer. -/
def Onward (cur : Cursor) (m : Mode) : Prop :=
  (cur.next none).1.token = .eof ∧ (cur.next none).2.rest = [] ∧ m.quote = none ∨
    (cur.next none).1.token ≠ .eof ∧ Agree (cur.next none).2 m ∧ (cur.next none).2.rest.length < cur.rest.length

variable (source) in
/-- The token of an interpolation, with what is skipped before it, leaves the scanner in the back-tick text. -/
theorem passes_inside {cur : Cursor} {n : Nat} (htext : cur.inText = false) (hbraces : cur.braces = [n])
    (hbad : (cur.next none).1.token.isBad = false) (htick : Char.ofNat 96 ∉ cur.taken) (hback : '\\' ∉ cur.taken)
    (fresh : Bool) :
    ∃ fresh', Soundly source ⟨backticking, fresh, cur.rest⟩ ⟨backticking, fresh', (cur.next none).2.rest⟩ ∧
      Onward cur backticking := by
  rcases cur.next_cases none hbad with ⟨hinText, -⟩ | ⟨-, hcases⟩
  · rw [htext] at hinText
    cases hinText
  · have hskipped := skipSpace_suffix (cur.rest.length + 1) cur.pos cur.rest
    have hsuffix : (cur.next none).2.rest <:+ cur.rest := by
      rcases hcases with ⟨-, -, hrest⟩ | ⟨-, hlexeme⟩
      · exact hrest ▸ List.nil_suffix
      · exact hlexeme.suffix.1.trans hskipped
    have hsplit := take_append_suffix hsuffix
    obtain ⟨fresh', hpasses⟩ := passes_backticking source htick hback (cur.next none).2.rest fresh
    rw [Cursor.taken, hsplit] at hpasses
    refine ⟨fresh', hpasses, ?_⟩
    rcases hcases with ⟨-, heof, hrest⟩ | ⟨heof, hlexeme⟩
    · exact .inl ⟨heof, hrest, rfl⟩
    · refine .inr ⟨heof, ?_, Nat.lt_of_lt_of_le hlexeme.suffix.2 hskipped.length_le⟩
      have hfollows (h : cur.Follows (cur.next none).2) : Agree (cur.next none).2 backticking :=
        .inr ⟨rfl, h.inside n hbraces⟩
      -- a back-tick would be among the characters taken
      have hnotick {cs : List Char}
          (h : (skipSpace (cur.rest.length + 1) cur.pos cur.rest).1 = Char.ofNat 96 :: cs) : False := by
        have hlength := hlexeme.suffix.2
        rw [h] at hskipped hlength
        obtain ⟨before, hbefore⟩ := hskipped
        refine htick ?_
        rw [Cursor.taken, ← hbefore]
        refine List.mem_take_iff_getElem.mpr ⟨before.length, ?_, by simp⟩
        simp only [List.length_append, List.length_cons] at hlength ⊢
        omega
      cases hlexeme with
      | plain _ _ _ h => exact hfollows h
      | quoted _ _ _ h => exact hfollows h
      | raw _ _ h => exact hfollows h
      | backtick _ hcs _ _ => exact (hnotick hcs).elim
      | interpolation _ hcs _ _ _ => exact (hnotick hcs).elim

/-- A token of code, with what is skipped before it. -/
theorem passes_code {cur : Cursor} (htext : cur.inText = false) (hbraces : cur.braces = [])
    (hbad : (cur.next none).1.token.isBad = false) (hunderstood : cur.understood = true)
    (hout : ∀ k, OutsideTexts source (skipSpace k cur.pos cur.rest).1) (fresh : Bool) :
    ∃ m fresh', Soundly source ⟨.code, fresh, cur.rest⟩ ⟨m, fresh', (cur.next none).2.rest⟩ ∧ Onward cur m := by
  obtain ⟨hnested, hquoted, htick, hraw⟩ := Cursor.lexeme_of_understood htext hbraces hunderstood
  obtain ⟨m₁, fresh₁, hspace, hready⟩ := passes_space hout hnested (.inl rfl) fresh
  have hskipped := skipSpace_suffix (cur.rest.length + 1) cur.pos cur.rest
  rcases cur.next_cases none hbad with ⟨hinText, -⟩ | ⟨-, ⟨hcs, heof, hrest⟩ | ⟨heof, hlexeme⟩⟩
  · rw [htext] at hinText
    cases hinText
  · rw [hcs] at hspace
    rw [hrest]
    exact ⟨m₁, fresh₁, hspace, .inl ⟨heof, hrest, hready.quote_eq_none⟩⟩
  · have hskip := skipOne_skipSpace cur.pos (Nat.lt_succ_self cur.rest.length)
    have hcs : cur.atToken ≠ [] := by
      intro hnil
      have hlength := hlexeme.suffix.2
      rw [show (skipSpace (cur.rest.length + 1) cur.pos cur.rest).1 = [] from hnil] at hlength
      exact absurd hlength (Nat.not_lt_zero _)
    -- no line comment ends at a token, so code is all that the scanner can be ready for
    obtain rfl : m₁ = .code := hready.eq_code hskip hcs
    obtain ⟨m, fresh', hpasses, hafter⟩ := passes_lexeme hlexeme hbraces (hout _) hskip hquoted htick hraw fresh₁
    exact ⟨m, fresh', hspace.trans hpasses,
      .inr ⟨heof, hafter, Nat.lt_of_lt_of_le hlexeme.suffix.2 hskipped.length_le⟩⟩

variable (source) in
/-- The text that goes on behind an interpolation, up to its end or to the next interpolation. -/
theorem passes_resumed {cur : Cursor} (htext : cur.inText = true) (hbraces : cur.braces = [])
    (hbad : (cur.next none).1.token.isBad = false) (hback : '\\' ∉ cur.taken) (fresh : Bool) :
    ∃ m fresh', Soundly source ⟨backticking, fresh, cur.rest⟩ ⟨m, fresh', (cur.next none).2.rest⟩ ∧ Onward cur m := by
  rcases cur.next_cases none hbad with ⟨-, heof, hcases⟩ | ⟨hinText, -⟩
  · have hsuffix : (cur.next none).2.rest <:+ cur.rest ∧ (cur.next none).2.rest.length < cur.rest.length := by
      rcases hcases with ⟨hreads, -⟩ | ⟨hreads, -⟩
      · exact hreads.suffix
      · exact hreads.suffix
    have hsplit := (take_append_suffix hsuffix.1).symm
    rcases hcases with ⟨hreads, hfollows⟩ | ⟨hreads, hopened, hafter⟩
    · obtain ⟨fresh', hpasses⟩ := passes_backtick source hreads hsplit hback fresh
      exact ⟨_, fresh', hpasses, .inr ⟨heof, .of_follows hfollows hbraces, hsuffix.2⟩⟩
    · obtain ⟨fresh', hpasses⟩ := passes_backtick source hreads hsplit hback fresh
      exact ⟨_, fresh', hpasses, .inr ⟨heof, .inr ⟨rfl, .inr ⟨hafter, 0, hbraces ▸ hopened⟩⟩, hsuffix.2⟩⟩
  · rw [htext] at hinText
    cases hinText

/-- The scanner agrees with the lexer after the next token if it agreed before, and what it passes is sound. -/
theorem passes_next {cur : Cursor} {m : Mode} (hagree : Agree cur m) (hbad : (cur.next none).1.token.isBad = false)
    (hunderstood : cur.understood = true)
    (hout : cur.inText = false → cur.braces = [] → ∀ k, OutsideTexts source (skipSpace k cur.pos cur.rest).1) (fresh : Bool) :
    ∃ m' fresh', Soundly source ⟨m, fresh, cur.rest⟩ ⟨m', fresh', (cur.next none).2.rest⟩ ∧ Onward cur m' := by
  rcases hagree with ⟨htext, hbraces, rfl⟩ | ⟨rfl, ⟨htext, hbraces⟩ | ⟨htext, n, hbraces⟩⟩
  · exact passes_code htext hbraces hbad hunderstood (hout htext hbraces) fresh
  · simp only [Cursor.understood, htext, if_true, Bool.not_eq_true', List.contains_eq_mem, decide_eq_false_iff_not] at hunderstood
    exact passes_resumed source htext hbraces hbad hunderstood fresh
  · simp only [Cursor.understood, htext, hbraces, List.isEmpty_cons, Bool.not_false, Bool.false_eq_true, if_false, if_true,
      Bool.and_eq_true, Bool.not_eq_true', List.contains_eq_mem, decide_eq_false_iff_not] at hunderstood
    exact ⟨backticking, passes_inside source htext hbraces hbad hunderstood.2 hunderstood.1 fresh⟩

theorem mem_visited (fuel : Nat) (cur : Cursor) : cur ∈ Cursor.visited none fuel cur := by
  cases fuel with
  | zero => exact List.mem_singleton_self cur
  | succ fuel =>
    unfold Cursor.visited
    split
    · exact List.mem_singleton_self cur
    · exact List.mem_singleton_self cur
    · exact List.mem_cons_self

theorem tokens_succ {fuel : Nat} {cur : Cursor} (heof : (cur.next none).1.token ≠ .eof)
    (hgood : (cur.next none).1.token.isBad = false) :
    cur.tokens none (fuel + 1) = (cur.next none).1 :: (cur.next none).2.tokens none fuel := by
  rw [Cursor.tokens]
  dsimp only
  split
  · next h => exact absurd h heof
  · next h => simp [h, Token.isBad] at hgood
  · rfl

theorem visited_succ {fuel : Nat} {cur : Cursor} (heof : (cur.next none).1.token ≠ .eof)
    (hgood : (cur.next none).1.token.isBad = false) :
    Cursor.visited none (fuel + 1) cur = cur :: Cursor.visited none fuel (cur.next none).2 := by
  rw [Cursor.visited]
  split
  · next h => exact absurd h heof
  · next h => simp [h, Token.isBad] at hgood
  · rfl

theorem next_mem_tokens (fuel : Nat) (cur : Cursor) : (cur.next none).1 ∈ cur.tokens none (fuel + 1) := by
  unfold Cursor.tokens
  dsimp only
  split
  · exact List.mem_singleton_self _
  · exact List.mem_singleton_self _
  · exact List.mem_cons_self

/-- The scanner passes sound places only, from a cursor to the end of the script. -/
theorem passes_tokens {fuel : Nat} {cur : Cursor} {m : Mode} (hfuel : cur.rest.length < fuel) (hagree : Agree cur m)
    (hbad : ∀ t ∈ cur.tokens none fuel, t.token.isBad = false)
    (hunderstood : ∀ c ∈ Cursor.visited none fuel cur, c.understood = true)
    (hcursors : ∀ c ∈ Cursor.visited none fuel cur, c ∈ cursors source) (fresh : Bool) :
    ∃ m' fresh', Soundly source ⟨m, fresh, cur.rest⟩ ⟨m', fresh', []⟩ ∧ m'.quote = none := by
  induction fuel generalizing cur m fresh with
  | zero => omega
  | succ fuel ih =>
    have hhere := mem_visited (fuel + 1) cur
    have hout : cur.inText = false → cur.braces = [] → ∀ k, OutsideTexts source (skipSpace k cur.pos cur.rest).1 :=
      fun htext hbraces k => ⟨cur, hcursors cur hhere, htext, hbraces, k, rfl⟩
    have hgood := hbad _ (next_mem_tokens fuel cur)
    obtain ⟨m₁, fresh₁, hpasses, hafter⟩ := passes_next hagree hgood (hunderstood cur hhere) hout fresh
    rcases hafter with ⟨-, hrest, hquote⟩ | ⟨heof, hagree₁, hshorter⟩
    · rw [hrest] at hpasses
      exact ⟨m₁, fresh₁, hpasses, hquote⟩
    · rw [tokens_succ heof hgood] at hbad
      rw [visited_succ heof hgood] at hunderstood hcursors
      obtain ⟨m₂, fresh₂, hrest, hquote⟩ := ih (by omega) hagree₁ (List.forall_mem_cons.mp hbad).2
        (List.forall_mem_cons.mp hunderstood).2 (List.forall_mem_cons.mp hcursors).2 fresh₁
      exact ⟨m₂, fresh₂, hpasses.trans hrest, hquote⟩

end Passing

/-- From the start of a script to its end, where no quote is open, the scanner passes sound places only, if it
understands the script. -/
theorem passes_script {source : String} (hlexes : Lexes source) (hunderstood : understood source = true) :
    ∃ m fresh, Soundly source ⟨.code, true, source.toList⟩ ⟨m, fresh, []⟩ ∧ m.quote = none :=
  passes_tokens (by simp only [Cursor.start, String.length_toList]; omega) (.inl ⟨rfl, rfl, rfl⟩) hlexes
    (List.all_eq_true.mp hunderstood) (fun _ h => h) true

end ScriptAgent.Script
