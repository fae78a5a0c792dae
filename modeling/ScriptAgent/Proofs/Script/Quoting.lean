import ScriptAgent.Proofs.Instrument.LineByLine
import ScriptAgent.Proofs.Script.Lexemes
import ScriptAgent.Proofs.Text.Reading

/-!
# What is written is read back

A text that was quoted is read as that text, whatever quotes and backslashes it holds, and the literal ends where
the quoting did.  With names, numbers and marks read back as well, the lexer finds the tokens that were written down.
-/

namespace ScriptAgent

namespace Script

/-! ### Text literals -/

section Texts

variable (opened : Pos) {limit : Option Nat} {st : TextState} {c : Char} {text rest after : List Char}

/-- One more character of a text was read, and the next one is read as it stands. -/
structure TextState.Took (st st' : TextState) (c : Char) : Prop where
  escape : st'.escape = .plain
  skipUntil : st'.skipUntil = 0
  acc : st'.acc = c :: st.acc
  bytes : st'.bytes = st.bytes + c.utf8Size

theorem any_gt_eq_false {n : Nat} (h : ∀ l ∈ limit, n ≤ l) : limit.any (n > ·) = false := by
  rw [Option.any_eq_false]
  exact fun l hl => decide_eq_false (Nat.not_lt.mpr (h l hl))

theorem readText_backslash (rest : List Char) (hst : st.escape = .plain) (hfits : limit.any (st.bytes > ·) = false) :
    ∃ st', readText .quoted opened limit st ('\\' :: rest) = readText .quoted opened limit st' rest ∧
      st'.escape = .escape ∧ st'.skipUntil = st.skipUntil ∧ st'.acc = st.acc ∧ st'.bytes = st.bytes := by
  rw [readText]
  simp only [hst, hfits]
  refine ⟨_, rfl, rfl, ?_⟩
  split <;> exact ⟨rfl, rfl, rfl⟩

/-- The letter behind a backslash stands for a character. -/
theorem readText_escaped {e : Char} (rest : List Char) (he : (e, c) ∈ [('"', '"'), ('\\', '\\'), ('t', '\t')])
    (hst : st.escape = .escape) (hskip : st.skipUntil = 0) (hfits : limit.any (st.bytes > ·) = false) :
    ∃ st', readText .quoted opened limit st (e :: rest) = readText .quoted opened limit st' rest ∧ st.Took st' c := by
  rw [readText]
  simp only [hst, hfits]
  simp only [List.mem_cons, Prod.mk.injEq, List.not_mem_nil, or_false] at he
  rcases he with ⟨rfl, rfl⟩ | ⟨rfl, rfl⟩ | ⟨rfl, rfl⟩ <;>
  · refine ⟨_, rfl, ?_⟩
    split <;> exact ⟨rfl, hskip, rfl, rfl⟩

theorem readText_unescaped (hst : st.escape = .plain) (hskip : st.skipUntil = 0)
    (hfits : limit.any (st.bytes > ·) = false) (hquote : c ≠ '"') (hback : c ≠ '\\') (hline : c ≠ '\n')
    (hrest : rest.head? ≠ some '\n') :
    ∃ st', readText .quoted opened limit st (c :: rest) = readText .quoted opened limit st' rest ∧ st.Took st' c := by
  rw [readText]
  simp only [hst, hfits, hskip, TextKind.quoted, beq_eq_false_iff_ne.mpr hquote, beq_eq_false_iff_ne.mpr hback,
    beq_eq_false_iff_ne.mpr hline, beq_eq_false_iff_ne.mpr hrest, Bool.and_false, Bool.false_and, Bool.false_eq_true,
    if_false]
  -- no blanks are to be skipped, so that a blank is read like any other character
  cases st.first.isNone <;>
  · simp only [Nat.not_lt_zero, decide_false, Bool.and_false, Bool.false_eq_true, if_false, if_true]
    exact ⟨_, rfl, rfl, rfl, rfl, rfl⟩

/-- A quoted character is read as the character. -/
theorem readText_quoteChar (hst : st.escape = .plain) (hskip : st.skipUntil = 0)
    (hfits : limit.any (st.bytes > ·) = false) (hc : c ≠ '\n') (hrest : rest.head? ≠ some '\n') :
    ∃ st', readText .quoted opened limit st (Line.quoteChar c ++ rest) = readText .quoted opened limit st' rest ∧
      st.Took st' c := by
  have escaped {e : Char} (he : (e, c) ∈ [('"', '"'), ('\\', '\\'), ('t', '\t')]) :
      ∃ st', readText .quoted opened limit st ('\\' :: e :: rest) = readText .quoted opened limit st' rest ∧
        st.Took st' c := by
    obtain ⟨st₁, hread₁, hescape, hskip₁, hacc, hbytes⟩ := readText_backslash opened (e :: rest) hst hfits
    obtain ⟨st₂, hread₂, h⟩ := readText_escaped opened rest he hescape (hskip₁.trans hskip) (hbytes ▸ hfits)
    exact ⟨st₂, hread₁.trans hread₂, h.escape, h.skipUntil, hacc ▸ h.acc, hbytes ▸ h.bytes⟩
  unfold Line.quoteChar
  split
  · next hquote =>
    obtain rfl := beq_iff_eq.mp hquote
    exact escaped (by decide)
  · next hquote =>
    split
    · next hback =>
      obtain rfl := beq_iff_eq.mp hback
      exact escaped (by decide)
    · next hback =>
      split
      · next htab =>
        obtain rfl := beq_iff_eq.mp htab
        exact escaped (by decide)
      · exact readText_unescaped opened hst hskip hfits (mt beq_iff_eq.mpr hquote) (mt beq_iff_eq.mpr hback) hc hrest

theorem head?_quoted (htext : '\n' ∉ text) : (text.flatMap Line.quoteChar ++ '"' :: after).head? ≠ some '\n' := by
  cases text with
  | nil => simp
  | cons c text =>
    have hc : '\n' ≠ c := List.ne_of_not_mem_cons htext
    rw [List.flatMap_cons]
    unfold Line.quoteChar
    split
    · simp
    · split
      · simp
      · split
        · simp
        · simpa using hc.symm

/-- A quoted text is read back, and what follows it is left. -/
theorem readText_quoted (htext : '\n' ∉ text) (hafter : after.head? ≠ some '"') (hst : st.escape = .plain)
    (hskip : st.skipUntil = 0) (hfits : ∀ l ∈ limit, st.bytes + utf8Size text ≤ l) :
    ∃ first pos, readText .quoted opened limit st (text.flatMap Line.quoteChar ++ '"' :: after) =
      .ok ⟨String.ofList (st.acc.reverse ++ text), .closed, first, pos, after⟩ := by
  induction text generalizing st with
  | nil =>
    have hany : limit.any (st.bytes > ·) = false := any_gt_eq_false hfits
    rw [List.flatMap_nil, List.nil_append, List.append_nil, readText.eq_def]
    cases after with
    | nil =>
      simp only [hst, hany, readText.close]
      exact ⟨_, _, rfl⟩
    | cons d after =>
      have hd : (d == '"') = false := beq_eq_false_iff_ne.mpr fun h => hafter (congrArg some h)
      simp only [hst, hany, readText.close, TextKind.quoted, hd]
      exact ⟨_, _, rfl⟩
  | cons c text ih =>
    rw [utf8Size_cons] at hfits
    have hany : limit.any (st.bytes > ·) = false := any_gt_eq_false fun l hl => Nat.le_of_add_right_le (hfits l hl)
    rw [List.flatMap_cons, List.append_assoc]
    obtain ⟨st', hread, h⟩ := readText_quoteChar opened hst hskip hany (List.ne_of_not_mem_cons htext).symm
      (head?_quoted (List.not_mem_of_not_mem_cons htext))
    have hfits' : ∀ l ∈ limit, st'.bytes + utf8Size text ≤ l := by
      rw [h.bytes, Nat.add_assoc]
      exact hfits
    obtain ⟨first, pos, hread'⟩ := ih (List.not_mem_of_not_mem_cons htext) h.escape h.skipUntil hfits'
    refine ⟨first, pos, ?_⟩
    rw [hread, hread', h.acc, List.reverse_cons, List.append_assoc, List.singleton_append]

/-- A quoted text that is longer than the limit is refused as such. -/
theorem readText_tooLong {l : Nat} (htext : '\n' ∉ text) (hst : st.escape = .plain) (hskip : st.skipUntil = 0)
    (hlong : l < st.bytes + utf8Size text) :
    readText .quoted opened (some l) st (text.flatMap Line.quoteChar ++ '"' :: after) = .error (.tooLong l, opened) := by
  have refused {st : TextState} (hst : st.escape = .plain) (h : l < st.bytes) {cs : List Char} (hcs : cs ≠ []) :
      readText .quoted opened (some l) st cs = .error (.tooLong l, opened) := by
    obtain ⟨c, rest, rfl⟩ := List.exists_cons_of_ne_nil hcs
    rw [readText.eq_def]
    simp [hst, TextKind.quoted, h]
  induction text generalizing st with
  | nil => exact refused hst hlong (List.append_ne_nil_of_right_ne_nil _ (List.cons_ne_nil _ _))
  | cons c text ih =>
    by_cases h : l < st.bytes
    · exact refused hst h (List.append_ne_nil_of_right_ne_nil _ (List.cons_ne_nil _ _))
    · have hany : (some l).any (st.bytes > ·) = false := decide_eq_false h
      rw [List.flatMap_cons, List.append_assoc]
      obtain ⟨st', hread, h⟩ := readText_quoteChar opened hst hskip hany (List.ne_of_not_mem_cons htext).symm
        (head?_quoted (List.not_mem_of_not_mem_cons htext))
      rw [hread]
      refine ih (List.not_mem_of_not_mem_cons htext) h.escape h.skipUntil ?_
      rw [h.bytes, Nat.add_assoc, ← utf8Size_cons]
      exact hlong

end Texts

/-! ### Numbers -/

theorem readDecimalLiteral_digits {ds : List Char} (hds : ∀ c ∈ ds, c.isDigit = true) (written : List Char) (taken : Nat)
    (after : List Char) :
    readDecimalLiteral written taken false false (ds ++ ')' :: after) =
      ⟨ds.reverse ++ written, taken + ds.length, ')' :: after⟩ := by
  induction ds generalizing written taken with
  | nil =>
    rw [List.nil_append, readDecimalLiteral.eq_def]
    rfl
  | cons c ds ih =>
    obtain ⟨hc, hds⟩ := List.forall_mem_cons.mp hds
    rw [List.cons_append, readDecimalLiteral.eq_def]
    simp only [hc, if_true]
    rw [ih hds, List.length_cons, List.reverse_cons, List.append_assoc, List.singleton_append, Nat.add_assoc,
      Nat.add_comm 1]

theorem decimalToken_toDigits {n : Nat} (hn : n < 9223372036854775808) :
    decimalToken false (Nat.toDigits 10 n) = .int n := by
  have hall : (Nat.toDigits 10 n).all Char.isDigit = true :=
    List.all_eq_true.mpr fun _ hc => Text.isDigit_of_mem_toDigits hc
  have hfits : fitsInt (n : Int) = true := by
    simp only [fitsInt, Bool.and_eq_true, decide_eq_true_eq]
    omega
  simp only [decimalToken, hall, Text.readDecimal_toDigits, if_true, Bool.false_eq_true, if_false, hfits]

/-- A number in front of a closing parenthesis is read back from its digits. -/
theorem readNumberLiteral_toDigits {n : Nat} (hn : n < 9223372036854775808) {first : Char} {ds : List Char}
    (h : Nat.toDigits 10 n = first :: ds) (after : List Char) :
    ∃ taken, readNumberLiteral false first (ds ++ ')' :: after) = (.int n, taken, ')' :: after) := by
  have hds : ∀ c ∈ ds, c.isDigit = true := fun c hc => Text.isDigit_of_mem_toDigits (h ▸ List.mem_cons_of_mem _ hc)
  -- no letter that tells a base comes second
  obtain ⟨d, more, hmore, hd⟩ : ∃ d more, ds ++ ')' :: after = d :: more ∧ d ∉ ['x', 'X', 'o', 'O', 'b', 'B'] := by
    cases ds with
    | nil => exact ⟨_, _, rfl, by decide⟩
    | cons d ds =>
      refine ⟨d, _, rfl, fun hmem => ?_⟩
      have hdigit := hds d List.mem_cons_self
      simp only [List.mem_cons, List.not_mem_nil, or_false] at hmem
      rcases hmem with rfl | rfl | rfl | rfl | rfl | rfl <;> cases hdigit
  simp only [List.mem_cons, List.not_mem_nil, or_false, not_or, ← beq_eq_false_iff_ne] at hd
  obtain ⟨hx, hX, ho, hO, hb, hB⟩ := hd
  refine ⟨1 + ds.length, ?_⟩
  unfold readNumberLiteral
  rw [hmore]
  simp only [hx, hX, ho, hO, hb, hB, Bool.or_false, Bool.false_eq_true, if_false, ite_self]
  rw [← hmore, readDecimalLiteral_digits hds, List.reverse_append, List.reverse_reverse, List.reverse_singleton,
    List.singleton_append, ← h, decimalToken_toDigits hn]

/-! ### Tokens -/

theorem toNat_of_isNameStart {c : Char} (h : isNameStart c = true) : 65 ≤ c.toNat ∧ c.toNat ≤ 122 := by
  have hletter : (c.isUpper || c.isLower || c == '_') = true := h
  simp only [Bool.or_eq_true, beq_iff_eq] at hletter
  rcases hletter with (hupper | hlower) | rfl
  · have hrange : 65 ≤ c.val ∧ c.val ≤ 90 := of_decide_eq_true hupper
    exact ⟨UInt32.le_iff_toNat_le.mp hrange.1, Nat.le_trans (UInt32.le_iff_toNat_le.mp hrange.2) (by decide)⟩
  · have hrange : 97 ≤ c.val ∧ c.val ≤ 122 := (Bool.and_eq_true_iff.mp hlower).imp of_decide_eq_true of_decide_eq_true
    exact ⟨Nat.le_trans (by decide) (UInt32.le_iff_toNat_le.mp hrange.1), UInt32.le_iff_toNat_le.mp hrange.2⟩
  · decide

namespace Cursor

variable {limit : Option Nat} {cur cur' cur'' : Cursor} {blanks rest : List Char}

/-- Outside of texts, tokens are read one after the other, however many the fuel lets follow. -/
structure Gives (limit : Option Nat) (cur : Cursor) (ts : List Token) (cur' : Cursor) : Prop where
  tokens : ∃ placed : List Placed, placed.map (·.token) = ts ∧
    ∀ k, cur.tokens limit (k + ts.length) = placed ++ cur'.tokens limit k
  inText : cur'.inText = false
  braces : cur'.braces = cur.braces

theorem Gives.trans {ts ts' : List Token} (h : cur.Gives limit ts cur') (h' : cur'.Gives limit ts' cur'') :
    cur.Gives limit (ts ++ ts') cur'' := by
  obtain ⟨placed, hplaced, htokens⟩ := h.tokens
  obtain ⟨placed', hplaced', htokens'⟩ := h'.tokens
  refine ⟨⟨placed ++ placed', by rw [List.map_append, hplaced, hplaced'], fun k => ?_⟩, h'.inText, h'.braces.trans h.braces⟩
  rw [List.length_append, Nat.add_comm ts.length, ← Nat.add_assoc, htokens, htokens', List.append_assoc]

/-- Where nothing is left the last token is the end. -/
theorem tokens_of_rest_eq_nil (htext : cur.inText = false) (hrest : cur.rest = []) (limit : Option Nat) (k : Nat) :
    ∃ pos, cur.tokens limit (k + 1) = [⟨.eof, pos⟩] := by
  have hnext : ∃ pos cur', cur.next limit = (⟨.eof, pos⟩, cur') := by
    unfold next
    rw [htext, hrest]
    exact ⟨_, _, rfl⟩
  obtain ⟨pos, cur', hnext⟩ := hnext
  rw [Cursor.tokens, hnext]
  exact ⟨pos, rfl⟩

/-- A token that is neither the end nor refused is followed by those behind it. -/
theorem gives_one {token : Token} {pos : Pos} (h : cur.next limit = (⟨token, pos⟩, cur')) (hend : (token == .eof) = false)
    (hbad : token.isBad = false) (htext : cur'.inText = false) (hbraces : cur'.braces = cur.braces) :
    cur.Gives limit [token] cur' := by
  refine ⟨⟨[⟨token, pos⟩], rfl, fun k => ?_⟩, htext, hbraces⟩
  show cur.tokens limit (k + 1) = _
  rw [Cursor.tokens, h]
  cases token with
  | eof => cases hend
  | bad => cases hbad
  | _ => rfl

theorem skip_blanks (hblanks : ∀ c ∈ blanks, Text.isBlank c = true) {c : Char} (hc : Text.isBlank c = false)
    (hslash : c ≠ '/') (hcur : cur.rest = blanks ++ c :: rest) :
    ∃ pos, skipSpace (cur.rest.length + 1) cur.pos cur.rest = (c :: rest, pos) := by
  have hstay (pos : Pos) : skipOne pos (c :: rest) = none := by
    have hline : c ≠ '\n' := by
      rintro rfl
      cases hc
    rw [skipOne.eq_4 _ _ _ hline (fun _ hcs => absurd hcs hslash) (fun _ hcs => absurd hcs hslash), hc]
    rfl
  rw [hcur, List.length_append, Nat.add_assoc]
  obtain ⟨pos, hskip⟩ := skipSpace_blanks hblanks ((c :: rest).length + 1) cur.pos (c :: rest)
  exact ⟨pos, hskip.trans (skipSpace_of_none (hstay pos) _)⟩

/-- The next token is one of the marks of a call. -/
theorem gives_mark (limit : Option Nat) {c : Char} {cs : List Char} (mark : String) (htext : cur.inText = false)
    (hcur : cur.rest = c :: cs) (hmark : (c, mark) ∈ [('(', "("), (',', ","), (')', ")"), (';', ";")])
    (hread : readSymbol (c :: cs) symbols = some (mark, true, cs)) :
    ∃ cur', cur.Gives limit [.mark mark] cur' ∧ cur'.rest = cs := by
  have hplace : ∀ m ∈ [('(', "("), (',', ","), (')', ")"), (';', ";")], Text.isBlank m.1 = false ∧ m.1 ≠ '/' := by decide
  obtain ⟨before, hskip⟩ := skip_blanks (List.forall_mem_nil _) (hplace _ hmark).1 (hplace _ hmark).2 hcur
  have hnext : cur.next limit = next.symbol before.advance before (c :: cs) cur := by
    unfold next
    rw [htext, hskip]
    simp only [List.mem_cons, Prod.mk.injEq, List.not_mem_nil, or_false] at hmark
    rcases hmark with ⟨rfl, -⟩ | ⟨rfl, -⟩ | ⟨rfl, -⟩ | ⟨rfl, -⟩ <;> rfl
  rw [next.symbol, hread] at hnext
  simp only [List.mem_cons, Prod.mk.injEq, List.not_mem_nil, or_false] at hmark
  rcases hmark with ⟨-, rfl⟩ | ⟨-, rfl⟩ | ⟨-, rfl⟩ | ⟨-, rfl⟩ <;> exact ⟨_, gives_one hnext rfl rfl rfl rfl, rfl⟩

/-- The next token is a name. -/
theorem gives_name (limit : Option Nat) {first : Char} {word : List Char} {name : String} (htext : cur.inText = false)
    (hblanks : ∀ c ∈ blanks, Text.isBlank c = true) (hfirst : isNameStart first = true)
    (hword : ∀ c ∈ first :: word, isNameChar c = true) (hname : wordToken (String.ofList (first :: word)) = .ident name)
    (hrest : rest.head?.any isNameChar = false) (hcur : cur.rest = blanks ++ (first :: word ++ rest)) :
    ∃ cur', cur.Gives limit [.ident name] cur' ∧ cur'.rest = rest := by
  have hlarge := toNat_of_isNameStart hfirst
  have hblank : Text.isBlank first = false := by
    simp only [Text.isBlank, Bool.or_eq_false_iff, Bool.and_eq_false_iff, decide_eq_false_iff_not, beq_eq_false_iff_ne]
    omega
  have hdigit : first.isDigit = false := by
    rw [← Bool.not_eq_true]
    intro h
    have := Text.toNat_of_isDigit h
    omega
  have hslash : first ≠ '/' := by
    rintro rfl
    cases hfirst
  rw [List.cons_append] at hcur
  obtain ⟨before, hskip⟩ := skip_blanks hblanks hblank hslash hcur
  have hstop : rest.takeWhile isNameChar = [] ∧ rest.dropWhile isNameChar = rest := by
    cases rest with
    | nil => exact ⟨rfl, rfl⟩
    | cons d rest =>
      have hd : ¬isNameChar d = true := by simpa using hrest
      exact ⟨List.takeWhile_cons_of_neg hd, List.dropWhile_cons_of_neg hd⟩
  have htake : (first :: (word ++ rest)).takeWhile isNameChar = first :: word := by
    rw [← List.cons_append, List.takeWhile_append_of_pos hword, hstop.1, List.append_nil]
  have hdrop : (first :: (word ++ rest)).dropWhile isNameChar = rest := by
    rw [← List.cons_append, List.dropWhile_append_of_pos hword, hstop.2]
  have hnext : ∃ pos pos', cur.next limit = (⟨.ident name, pos⟩, cur.after (.ident name) pos' rest) := by
    unfold next
    simp only [htext, Bool.false_eq_true, if_false, hskip, hdigit, hfirst, if_true, htake, hdrop, hname]
    exact ⟨_, _, rfl⟩
  obtain ⟨pos, pos', hnext⟩ := hnext
  exact ⟨_, gives_one hnext rfl rfl rfl rfl, rfl⟩

/-- The next token is a number in front of a closing parenthesis. -/
theorem gives_number (limit : Option Nat) {n : Nat} (htext : cur.inText = false) (hn : n < 9223372036854775808)
    (hblanks : ∀ c ∈ blanks, Text.isBlank c = true) (hcur : cur.rest = blanks ++ (Nat.toDigits 10 n ++ ')' :: rest)) :
    ∃ cur', cur.Gives limit [.int n] cur' ∧ cur'.rest = ')' :: rest := by
  obtain ⟨first, ds, hdigits⟩ := List.exists_cons_of_ne_nil (Nat.toDigits_ne_nil (n := n) (b := 10))
  have hfirst : first.isDigit = true := Text.isDigit_of_mem_toDigits (hdigits ▸ List.mem_cons_self)
  have hslash : first ≠ '/' := by
    rintro rfl
    cases hfirst
  rw [hdigits, List.cons_append] at hcur
  obtain ⟨before, hskip⟩ := skip_blanks hblanks (Text.isBlank_of_isDigit hfirst) hslash hcur
  obtain ⟨taken, hread⟩ := readNumberLiteral_toDigits hn hdigits rest
  have hnext : ∃ pos pos', cur.next limit = (⟨.int n, pos⟩, cur.after (.int n) pos' (')' :: rest)) := by
    unfold next
    simp only [htext, Bool.false_eq_true, if_false, hskip, hfirst, if_true, hread]
    exact ⟨_, _, rfl⟩
  obtain ⟨pos, pos', hnext⟩ := hnext
  exact ⟨_, gives_one hnext rfl rfl rfl rfl, rfl⟩

section Quoted

variable (limit : Option Nat) {text : List Char} (htext : cur.inText = false) (hline : '\n' ∉ text)
  (hcur : cur.rest = Line.quote text ++ rest)
include htext hcur

/-- At a quoted text its literal is read. -/
theorem next_quote : ∃ pos, cur.next limit = cur.text (some pos)
    (readText .quoted pos limit { pos } (text.flatMap Line.quoteChar ++ '"' :: rest)) := by
  have hquote : Line.quote text ++ rest = '"' :: (text.flatMap Line.quoteChar ++ '"' :: rest) := by simp [Line.quote]
  rw [hquote] at hcur
  obtain ⟨before, hskip⟩ := skip_blanks (List.forall_mem_nil _) (by decide) (by decide) hcur
  unfold next
  rw [htext, hskip]
  exact ⟨_, rfl⟩

include hline

/-- The next token is a quoted text. -/
theorem gives_quoted (hrest : rest.head? ≠ some '"') (hfits : ∀ l ∈ limit, utf8Size text ≤ l) :
    ∃ cur', cur.Gives limit [.str (String.ofList text)] cur' ∧ cur'.rest = rest := by
  obtain ⟨pos, hnext⟩ := next_quote limit htext hcur
  have hread : ∃ first pos', readText .quoted pos limit { pos } (text.flatMap Line.quoteChar ++ '"' :: rest) =
      .ok ⟨String.ofList text, .closed, first, pos', rest⟩ :=
    readText_quoted pos hline hrest rfl rfl (by simpa using hfits)
  obtain ⟨first, pos', hread⟩ := hread
  rw [hread] at hnext
  exact ⟨_, gives_one hnext rfl rfl rfl rfl, rfl⟩

/-- A quoted text that is too long is the last token, a refused one. -/
theorem tokens_tooLong {l : Nat} (hlong : l < utf8Size text) (k : Nat) :
    ((cur.tokens (some l) (k + 1)).map (·.token)) = [.bad (.tooLong l)] := by
  obtain ⟨pos, hnext⟩ := next_quote (some l) htext hcur
  rw [readText_tooLong pos hline rfl rfl (by simpa using hlong)] at hnext
  rw [Cursor.tokens, hnext]
  rfl

end Quoted

end Cursor

end Script

end ScriptAgent
