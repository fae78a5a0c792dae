import ScriptAgent.Proofs.Script.Lexemes
import ScriptAgent.Script.Parser

/-!
# A call of two literals

A script whose tokens are a name, an opening parenthesis, two literals with a comma between them, a closing
parenthesis and a semicolon is one statement: the call of that name with these literals.  Each function of the parser
that such a script meets has a lemma that says what it takes from the tokens and what it leaves.
-/

namespace ScriptAgent.Script

theorem bind_of_ok {α β : Type} {p : Parser α} {f : α → Parser β} {st st' : ParseState} {a : α} (h : p st = .ok (a, st')) :
    (p >>= f) st = f a st' := by
  show (p st >>= fun r => f r.1 r.2) = _
  rw [h]
  rfl

theorem bind_of_error {α β : Type} {p : Parser α} {f : α → Parser β} {st : ParseState} {e : ParseError}
    (h : p st = .error e) : (p >>= f) st = .error e := by
  show (p st >>= fun r => f r.1 r.2) = _
  rw [h]
  rfl

/-! ### Single tokens -/

namespace Parser

variable {st : ParseState} {t : Placed} {rest : List Placed}

theorem peek_of_tokens (h : st.tokens = t :: rest) : peek st = .ok (t, st) := by
  unfold peek
  rw [bind_of_ok (show (get : Parser ParseState) st = .ok (st, st) from rfl), h]
  rfl

theorem next_of_tokens (h : st.tokens = t :: rest) (hend : (t.token == .eof) = false) (hbad : t.token.isBad = false) :
    next st = .ok (t, { st with tokens := rest }) := by
  obtain ⟨token, pos⟩ := t
  unfold next
  rw [bind_of_ok (show (get : Parser ParseState) st = .ok (st, st) from rfl), h]
  cases token with
  | eof => cases hend
  | bad e => cases hbad
  | _ => rfl

theorem next_of_mark {mark : String} {pos : Pos} (h : st.tokens = ⟨.mark mark, pos⟩ :: rest) :
    next st = .ok (⟨.mark mark, pos⟩, { st with tokens := rest }) :=
  next_of_tokens h rfl rfl

theorem accept_of_ne {mark : String} (h : st.tokens = t :: rest) (hmark : t.token ≠ .mark mark) :
    accept mark st = .ok (false, st) := by
  have hsees : sees mark st = .ok (false, st) := by
    obtain ⟨token, pos⟩ := t
    unfold sees
    rw [bind_of_ok (peek_of_tokens h)]
    cases token with
    | mark m =>
      have hm : (m == mark) = false := beq_eq_false_iff_ne.mpr fun hm => hmark (congrArg Token.mark hm)
      simp only [hm]
      rfl
    | _ => rfl
  unfold accept
  rw [bind_of_ok hsees]
  rfl

theorem deeper_of_lt {s : ParseSettings} (h : s.level < s.maxLevel) :
    deeper s st = .ok ({ s with level := s.level + 1 }, st) := by
  unfold deeper
  rw [if_neg (Nat.not_le.mpr h)]
  rfl

end Parser

open ScriptAgent.Script.Parser

/-! ### Literals in front of a mark -/

/-- The token is that literal, a number or a text. -/
inductive Token.Means : Token → Literal → Prop
  | int (n : Int) : Means (.int n) (.int n)
  | str (text : String) : Means (.str text) (.str text)

theorem Token.Means.ne_mark {t : Token} {v : Literal} (h : t.Means v) (mark : String) : t ≠ .mark mark := by
  rintro rfl
  cases h

variable {lim : ParseLimits} {s : ParseSettings} {st : ParseState} {more : List Placed}

section Literals

variable {t : Token} {v : Literal} {p q : Pos} {mark : String} (hmark : mark ∈ [",", ")", ";"])
include hmark

theorem parsePostfix_of_mark {e : Expr} (h : st.tokens = ⟨.mark mark, q⟩ :: more) (k : Nat) :
    parsePostfix lim (k + 1) s e st = .ok (e, st) := by
  rw [parsePostfix, bind_of_ok (peek_of_tokens h)]
  simp only [List.mem_cons, List.not_mem_nil, or_false] at hmark
  rcases hmark with rfl | rfl | rfl <;> rfl

theorem parseBinary_of_mark {e : Expr} (h : st.tokens = ⟨.mark mark, q⟩ :: more) (k : Nat) :
    parseBinary lim (k + 1) s 1 e st = .ok (e, st) := by
  rw [parseBinary, bind_of_ok (peek_of_tokens h)]
  simp only [List.mem_cons, List.not_mem_nil, or_false] at hmark
  rcases hmark with rfl | rfl | rfl <;> cases s.barEnds <;> rfl

theorem parsePrimary_literal (hv : t.Means v) (h : st.tokens = ⟨t, p⟩ :: ⟨.mark mark, q⟩ :: more) (k : Nat) :
    parsePrimary lim (k + 2) s st = .ok (.lit v p, { st with tokens := ⟨.mark mark, q⟩ :: more }) := by
  have hpostfix (s : ParseSettings) : parsePostfix lim (k + 1) s (.lit v p) { st with tokens := ⟨.mark mark, q⟩ :: more } =
      .ok (.lit v p, { st with tokens := ⟨.mark mark, q⟩ :: more }) :=
    parsePostfix_of_mark hmark rfl k
  have hbar : (s.barEnds && t == .mark "|") = false := by
    cases hv <;> exact Bool.and_false _
  rw [parsePrimary, bind_of_ok (peek_of_tokens h)]
  dsimp only
  rw [hbar, if_neg Bool.false_ne_true]
  cases hv <;>
  · dsimp only
    rw [bind_of_ok (next_of_tokens h rfl rfl)]
    exact hpostfix _

/-- A literal is an expression by itself if a mark that ends an argument or a statement follows. -/
theorem parseExpr_literal (hv : t.Means v) (h : st.tokens = ⟨t, p⟩ :: ⟨.mark mark, q⟩ :: more) (k : Nat) :
    parseExpr lim (k + 4) s st = .ok (.lit v p, { st with tokens := ⟨.mark mark, q⟩ :: more }) := by
  have hunary (s : ParseSettings) :
      parseUnary lim (k + 3) s st = .ok (.lit v p, { st with tokens := ⟨.mark mark, q⟩ :: more }) := by
    rw [parseUnary, bind_of_ok (peek_of_tokens h)]
    cases hv with
    | int n => exact parsePrimary_literal hmark (.int n) h k
    | str text => exact parsePrimary_literal hmark (.str text) h k
  rw [parseExpr, bind_of_ok (peek_of_tokens h), bind_of_ok (hunary _)]
  exact parseBinary_of_mark hmark rfl _

end Literals

/-! ### The call -/

section Calls

variable {name : String} {u v : Literal} {t₃ t₅ : Token} {p₁ p₂ p₃ p₄ p₅ p₆ p₇ p₈ : Pos}

/-- An argument of a call, with the comma behind it. -/
theorem parseArgs_comma (hu : t₃.Means u) {args : List Expr} (h : st.tokens = ⟨t₃, p₃⟩ :: ⟨.mark ",", p₄⟩ :: more)
    (k : Nat) :
    parseArgs lim (k + 5) s name args st = parseArgs lim (k + 4) s name (args ++ [.lit u p₃]) { st with tokens := more } := by
  rw [parseArgs, bind_of_ok (accept_of_ne h (hu.ne_mark _)), if_neg Bool.false_ne_true,
    bind_of_ok (parseExpr_literal (by decide) hu h k), bind_of_ok (peek_of_tokens rfl)]
  simp only []
  rw [bind_of_ok (next_of_mark rfl)]

/-- The last argument of a call, with the parenthesis behind it. -/
theorem parseArgs_last (hv : t₅.Means v) {args : List Expr} (h : st.tokens = ⟨t₅, p₅⟩ :: ⟨.mark ")", p₆⟩ :: more)
    (k : Nat) : parseArgs lim (k + 5) s name args st = .ok (args ++ [.lit v p₅], { st with tokens := more }) := by
  rw [parseArgs, bind_of_ok (accept_of_ne h (hv.ne_mark _)), if_neg Bool.false_ne_true,
    bind_of_ok (parseExpr_literal (by decide) hv h k), bind_of_ok (peek_of_tokens rfl)]
  simp only []
  rw [bind_of_ok (next_of_mark rfl)]
  rfl

/-- The tokens of a call with two literals, and what follows it. -/
def callTokens (name : String) (t₃ t₅ : Token) (p₁ p₂ p₃ p₄ p₅ p₆ : Pos) (more : List Placed) : List Placed :=
  ⟨.ident name, p₁⟩ :: ⟨.mark "(", p₂⟩ :: ⟨t₃, p₃⟩ :: ⟨.mark ",", p₄⟩ :: ⟨t₅, p₅⟩ :: ⟨.mark ")", p₆⟩ :: more

variable (hu : t₃.Means u) (hv : t₅.Means v)
include hu hv

theorem parseCall_two (hlevel : s.level < s.maxLevel)
    (h : ⟨.ident name, p₁⟩ :: st.tokens = callTokens name t₃ t₅ p₁ p₂ p₃ p₄ p₅ p₆ more) (k : Nat) :
    parseCall lim (k + 8) s name p₁ st = .ok (.call name [.lit u p₃, .lit v p₅] p₁, { st with tokens := more }) := by
  replace h := List.tail_eq_of_cons_eq h
  have hargs (s : ParseSettings) : parseArgs lim (k + 6) s name []
        { st with tokens := ⟨t₃, p₃⟩ :: ⟨.mark ",", p₄⟩ :: ⟨t₅, p₅⟩ :: ⟨.mark ")", p₆⟩ :: more } =
      .ok ([.lit u p₃, .lit v p₅], { st with tokens := more }) := by
    rw [parseArgs_comma hu rfl (k + 1)]
    exact parseArgs_last hv rfl k
  have hcallArgs : parseCallArgs lim (k + 7) s name st = .ok ([.lit u p₃, .lit v p₅], { st with tokens := more }) := by
    have hplain : accept "!" st = .ok (false, st) := accept_of_ne h (by simp)
    have hfilled : accept "()" st = .ok (false, st) := accept_of_ne h (by simp)
    rw [parseCallArgs, bind_of_ok hplain, if_neg Bool.false_ne_true]
    dsimp only
    rw [bind_of_ok hfilled, if_neg Bool.false_ne_true, bind_of_ok (next_of_mark h), bind_of_ok (peek_of_tokens rfl)]
    cases hu <;>
    · simp only []
      rw [bind_of_ok (deeper_of_lt hlevel)]
      exact hargs _
  rw [parseCall, bind_of_ok hcallArgs]
  rfl

theorem parseExpr_call (hlevel : s.level < s.maxLevel)
    (h : st.tokens = callTokens name t₃ t₅ p₁ p₂ p₃ p₄ p₅ p₆ (⟨.mark ";", p₇⟩ :: more)) (k : Nat) :
    parseExpr lim (k + 11) s st =
      .ok (.call name [.lit u p₃, .lit v p₅] p₁, { st with tokens := ⟨.mark ";", p₇⟩ :: more }) := by
  have hprimary (s : ParseSettings) (hlevel : s.level < s.maxLevel) : parsePrimary lim (k + 9) s st =
      .ok (.call name [.lit u p₃, .lit v p₅] p₁, { st with tokens := ⟨.mark ";", p₇⟩ :: more }) := by
    have hbar : (s.barEnds && Token.ident name == .mark "|") = false := Bool.and_false _
    rw [parsePrimary, bind_of_ok (peek_of_tokens h)]
    dsimp only
    rw [hbar, if_neg Bool.false_ne_true, bind_of_ok (next_of_tokens h rfl rfl), bind_of_ok (peek_of_tokens rfl)]
    simp only []
    rw [bind_of_ok (parseCall_two (s := { s with pos := p₁ }) hu hv hlevel rfl k)]
    exact parsePostfix_of_mark (by decide) rfl _
  have hunary (s : ParseSettings) (hlevel : s.level < s.maxLevel) : parseUnary lim (k + 10) s st =
      .ok (.call name [.lit u p₃, .lit v p₅] p₁, { st with tokens := ⟨.mark ";", p₇⟩ :: more }) := by
    rw [parseUnary, bind_of_ok (peek_of_tokens h)]
    exact hprimary _ hlevel
  rw [parseExpr, bind_of_ok (peek_of_tokens h), bind_of_ok (hunary { s with pos := p₁ } hlevel)]
  exact parseBinary_of_mark (by decide) rfl _

/-- Where a statement may begin, a call with two literals is read as one. -/
theorem parseStmt_call (hlevel : s.level + 1 < s.maxLevel)
    (h : st.tokens = callTokens name t₃ t₅ p₁ p₂ p₃ p₄ p₅ p₆ (⟨.mark ";", p₇⟩ :: more)) (k : Nat) :
    parseStmt lim (k + 13) s st =
      .ok (.expr (.call name [.lit u p₃, .lit v p₅] p₁), { st with tokens := ⟨.mark ";", p₇⟩ :: more }) := by
  have hstatement (s : ParseSettings) (hlevel : s.level < s.maxLevel) : parseExprStmt lim (k + 12) s st =
      .ok (.expr (.call name [.lit u p₃, .lit v p₅] p₁), { st with tokens := ⟨.mark ";", p₇⟩ :: more }) := by
    rw [parseExprStmt, bind_of_ok (parseExpr_call hu hv hlevel h k), bind_of_ok (peek_of_tokens rfl)]
    rfl
  rw [parseStmt, bind_of_ok (peek_of_tokens h)]
  simp only []
  rw [bind_of_ok (deeper_of_lt (s := { s with pos := p₁ }) (Nat.lt_of_succ_lt hlevel))]
  exact hstatement _ hlevel

/-- A script that is a call with two literals and a semicolon is that one statement. -/
theorem parse_call {source : String} (hdepth : 1 < lim.depth)
    (h : tokens source lim.text = callTokens name t₃ t₅ p₁ p₂ p₃ p₄ p₅ p₆ [⟨.mark ";", p₇⟩, ⟨.eof, p₈⟩]) :
    parse source lim = .ok ⟨[], [.expr (.call name [.lit u p₃, .lit v p₅] p₁)]⟩ := by
  have hlength : (tokens source lim.text).length = 8 := by
    rw [h]
    rfl
  have hstmt : parseStmt lim 464 { maxLevel := lim.depth, isGlobal := true } { tokens := tokens source lim.text } =
      .ok (.expr (.call name [.lit u p₃, .lit v p₅] p₁), { tokens := [⟨.mark ";", p₇⟩, ⟨.eof, p₈⟩] }) :=
    parseStmt_call hu hv hdepth h 451
  have hglobal : parseGlobal lim 464 10 [] { tokens := tokens source lim.text } =
      .ok ([.expr (.call name [.lit u p₃, .lit v p₅] p₁)], { tokens := [⟨.eof, p₈⟩] }) := by
    have hname : (Token.ident name == Token.eof) = false := rfl
    rw [parseGlobal, bind_of_ok (peek_of_tokens h), hname, if_neg Bool.false_ne_true, bind_of_ok hstmt]
    simp only []
    rw [bind_of_ok (peek_of_tokens rfl)]
    simp only []
    rw [bind_of_ok (next_of_mark rfl), parseGlobal, bind_of_ok (peek_of_tokens rfl)]
    rfl
  unfold parse
  dsimp only
  rw [hlength, StateT.run, hglobal]
  rfl

end Calls

/-! ### A call whose arguments are refused -/

section Refused

variable {name : String} {e : LexError} {p₁ p₂ p₃ : Pos}

/-- A call is refused if the lexer refused what stands behind its parenthesis, and for the same reason. -/
theorem parseStmt_refused (hlevel : s.level < s.maxLevel)
    (h : st.tokens = ⟨.ident name, p₁⟩ :: ⟨.mark "(", p₂⟩ :: ⟨.bad e, p₃⟩ :: more) (k : Nat) :
    parseStmt lim (k + 7) s st = .error ⟨.lex e, p₃⟩ := by
  have hcallArgs (s : ParseSettings) : parseCallArgs lim (k + 1) s name
      { st with tokens := ⟨.mark "(", p₂⟩ :: ⟨.bad e, p₃⟩ :: more } = .error ⟨.lex e, p₃⟩ := by
    rw [parseCallArgs, bind_of_ok (accept_of_ne rfl (by simp)), if_neg Bool.false_ne_true]
    dsimp only
    rw [bind_of_ok (accept_of_ne rfl (by simp)), if_neg Bool.false_ne_true, bind_of_ok (next_of_mark rfl),
      bind_of_ok (peek_of_tokens rfl)]
    rfl
  have hprimary (s : ParseSettings) : parsePrimary lim (k + 3) s st = .error ⟨.lex e, p₃⟩ := by
    have hbar : (s.barEnds && Token.ident name == .mark "|") = false := Bool.and_false _
    rw [parsePrimary, bind_of_ok (peek_of_tokens h)]
    dsimp only
    rw [hbar, if_neg Bool.false_ne_true, bind_of_ok (next_of_tokens h rfl rfl), bind_of_ok (peek_of_tokens rfl)]
    simp only []
    rw [parseCall, bind_of_error (bind_of_error (hcallArgs _))]
  have hexpr (s : ParseSettings) : parseExpr lim (k + 5) s st = .error ⟨.lex e, p₃⟩ := by
    rw [parseExpr, bind_of_ok (peek_of_tokens h), parseUnary]
    refine bind_of_error ?_
    rw [bind_of_ok (peek_of_tokens h)]
    exact hprimary _
  have hstatement (s : ParseSettings) : parseExprStmt lim (k + 6) s st = .error ⟨.lex e, p₃⟩ := by
    rw [parseExprStmt, bind_of_error (hexpr s)]
  rw [parseStmt, bind_of_ok (peek_of_tokens h)]
  simp only []
  rw [bind_of_ok (deeper_of_lt (s := { s with pos := p₁ }) hlevel)]
  exact hstatement _

/-- A script that begins with such a call does not parse. -/
theorem parse_refused {source : String} (hdepth : 0 < lim.depth)
    (h : tokens source lim.text = [⟨.ident name, p₁⟩, ⟨.mark "(", p₂⟩, ⟨.bad e, p₃⟩]) :
    parse source lim = .error ⟨.lex e, p₃⟩ := by
  have hlength : (tokens source lim.text).length = 3 := by
    rw [h]
    rfl
  have hglobal : parseGlobal lim 424 5 [] { tokens := tokens source lim.text } = .error ⟨.lex e, p₃⟩ := by
    have hname : (Token.ident name == Token.eof) = false := rfl
    rw [parseGlobal, bind_of_ok (peek_of_tokens h), hname, if_neg Bool.false_ne_true,
      bind_of_error (parseStmt_refused hdepth h 417)]
  unfold parse
  dsimp only
  rw [hlength, StateT.run, hglobal]

end Refused

end ScriptAgent.Script
