import Mathlib.Data.List.Basic
import ScriptAgent.Proofs.Script.Lexemes
import ScriptAgent.Script.Parser

/-!
# What parses was read to its end

The lexer ends the tokens of a script with a bad one or with the end of the script.  No parsing function takes a bad
token, and a script is parsed only when its end is the next token.  So a script that parses has no bad token.
-/

namespace ScriptAgent.Script

/-- A bad token is among the tokens, and the end of the script is not. -/
structure Broken (ts : List Placed) : Prop where
  bad : ∃ t ∈ ts, t.token.isBad = true
  endless : ∀ t ∈ ts, t.token ≠ .eof

theorem Broken.of_tokens {limit : Option Nat} {fuel : Nat} {cur : Cursor} {bad : Placed}
    (h : bad ∈ cur.tokens limit fuel) (hbad : bad.token.isBad = true) : Broken (cur.tokens limit fuel) := by
  refine ⟨⟨bad, h, hbad⟩, ?_⟩
  induction fuel generalizing cur with
  | zero =>
    obtain rfl := List.mem_singleton.mp h
    cases hbad
  | succ fuel ih =>
    unfold Cursor.tokens at h ⊢
    dsimp only at h ⊢
    split at h
    · next heof =>
      obtain rfl := List.mem_singleton.mp h
      simp [heof, Token.isBad] at hbad
    · next e he =>
      intro t ht
      obtain rfl := List.mem_singleton.mp ht
      simp [he]
    · next heof hnotbad =>
      intro t ht
      rcases List.mem_cons.mp ht with rfl | ht
      · exact heof
      · refine ih ?_ t ht
        rcases List.mem_cons.mp h with rfl | h
        · cases htoken : (cur.next limit).1.token with
          | bad e => exact absurd htoken (hnotbad e)
          | _ => simp [htoken, Token.isBad] at hbad
        · exact h

/-! ### Parsers -/

namespace Parser

variable {α β : Type}

/-- A parser that takes no bad token. -/
def Keeps (p : Parser α) : Prop :=
  ∀ st a st', p st = .ok (a, st') → Broken st.tokens → Broken st'.tokens

theorem keeps_pure (a : α) : Keeps (pure a) := by
  intro st b st' h hst
  cases h
  exact hst

theorem keeps_fail (fault : ParseFault) (pos : Pos) : Keeps (fail fault pos : Parser α) := by
  intro st b st' h
  cases h

theorem bind_eq_ok {p : Parser α} {f : α → Parser β} {st st' : ParseState} {b : β}
    (h : (p >>= f) st = .ok (b, st')) : ∃ a st₁, p st = .ok (a, st₁) ∧ f a st₁ = .ok (b, st') := by
  simp only [bind, StateT.bind, Except.bind] at h
  split at h
  · cases h
  · next r heq => exact ⟨r.1, r.2, heq, h⟩

theorem keeps_bind {p : Parser α} {f : α → Parser β} (hp : Keeps p) (hf : ∀ a, Keeps (f a)) : Keeps (p >>= f) := by
  intro st b st' h hst
  obtain ⟨a, st₁, hrun, hrest⟩ := bind_eq_ok h
  exact hf a st₁ b st' hrest (hp st a st₁ hrun hst)

theorem keeps_fail_bind (fault : ParseFault) (pos : Pos) (f : α → Parser β) : Keeps (fail fault pos >>= f) := by
  intro st b st' h
  cases h

theorem keeps_get {f : ParseState → Parser β} (hf : ∀ st, Broken st.tokens → Keeps (f st)) : Keeps (get >>= f) := by
  intro st b st' h hst
  exact hf st hst st b st' h hst

theorem keeps_set {st : ParseState} (h : Broken st.tokens) : Keeps (set st) := by
  intro st₁ a st' heq _
  cases heq
  exact h

theorem keeps_modify {g : ParseState → ParseState} (h : ∀ st, Broken st.tokens → Broken (g st).tokens) :
    Keeps (modify g) := by
  intro st a st' heq hst
  cases heq
  exact h st hst

theorem keeps_forIn {items : List α} {init : β} {f : α → β → Parser (ForInStep β)} (hf : ∀ a b, Keeps (f a b)) :
    Keeps (forIn items init f) := by
  induction items generalizing init with
  | nil => exact keeps_pure init
  | cons a items ih =>
    rw [List.forIn_cons]
    refine keeps_bind (hf a init) fun step => ?_
    cases step with
    | done b => exact keeps_pure b
    | yield b => exact ih

theorem peek_eq_ok {st st' : ParseState} {t : Placed} (h : peek st = .ok (t, st')) (hst : Broken st.tokens) :
    st' = st ∧ t ∈ st.tokens := by
  obtain ⟨ts, scope, outer, functions⟩ := st
  cases ts with
  | nil => exact absurd hst.bad (by simp)
  | cons first rest =>
    cases h
    exact ⟨rfl, List.mem_cons_self⟩

theorem keeps_peek : Keeps peek := by
  intro st t st' h hst
  rwa [(peek_eq_ok h hst).1]

theorem keeps_next : Keeps next := by
  refine keeps_get fun st hst => ?_
  obtain ⟨ts, scope, outer, functions⟩ := st
  split
  · next first rest hts =>
    split
    · exact keeps_pure first
    · exact keeps_pure first
    · next heof hbad =>
      refine keeps_bind (keeps_modify fun _ _ => ?_) fun _ => keeps_pure first
      obtain rfl : ts = first :: rest := hts
      obtain ⟨bad, hmem, hisBad⟩ := hst.bad
      refine ⟨⟨bad, ?_, hisBad⟩, (List.forall_mem_cons.mp hst.endless).2⟩
      rcases List.mem_cons.mp hmem with rfl | hmem
      · cases htoken : bad.token with
        | bad e => exact absurd htoken (hbad e)
        | _ => simp [htoken, Token.isBad] at hisBad
      · exact hmem
  · exact keeps_pure _

theorem keeps_sees (mark : String) : Keeps (sees mark) := by
  refine keeps_bind keeps_peek fun t => ?_
  split
  · exact keeps_pure _
  · exact keeps_pure _

theorem keeps_accept (mark : String) : Keeps (accept mark) := by
  refine keeps_bind (keeps_sees mark) fun seen => ?_
  split
  · exact keeps_bind keeps_next fun _ => keeps_pure _
  · exact keeps_pure _

theorem missing_ne_ok {t : Placed} {mark purpose : String} {st : ParseState} {r : α × ParseState} :
    missing t mark purpose st ≠ .ok r := by
  unfold missing
  cases t.token <;> nofun

theorem keeps_missing (t : Placed) (mark purpose : String) : Keeps (missing t mark purpose : Parser α) :=
  fun _ _ _ h => absurd h missing_ne_ok

theorem keeps_expect (mark purpose : String) : Keeps (expect mark purpose) := by
  refine keeps_bind keeps_next fun t => ?_
  split
  · split
    · exact keeps_pure _
    · exact keeps_missing t mark purpose
  · exact keeps_missing t mark purpose

theorem keeps_deeper (s : ParseSettings) : Keeps (deeper s) := by
  unfold deeper
  split
  · exact keeps_fail _ _
  · exact keeps_pure _

theorem keeps_variableName : Keeps variableName := by
  refine keeps_bind keeps_next fun t => ?_
  split
  · exact keeps_pure _
  · split
    · exact keeps_fail _ _
    · exact keeps_fail _ _
  · exact keeps_fail _ _
  · exact keeps_fail _ _

theorem keeps_declare (name : String) (constant : Bool) : Keeps (declare name constant) :=
  keeps_modify fun _ h => h

theorem keeps_inScope {p : Parser α} (h : Keeps p) : Keeps (inScope p) :=
  keeps_get fun _ _ => keeps_bind h fun _ => keeps_bind (keeps_modify fun _ h => h) fun _ => keeps_pure _

theorem keeps_use (name : String) (pos : Pos) : Keeps (use name pos) := by
  refine keeps_get fun st hst => ?_
  split
  · exact keeps_set hst
  · exact keeps_pure _

theorem keeps_addFunction (f : Function) : Keeps (addFunction f) :=
  keeps_get fun _ hst => keeps_bind (keeps_set hst) fun _ => keeps_pure _

end Parser

open ScriptAgent.Script.Parser

theorem keeps_notBlock : Keeps notBlock := by
  refine keeps_bind keeps_peek fun t => ?_
  split
  · exact keeps_fail _ _
  · exact keeps_pure _

theorem keeps_notAssignment : Keeps notAssignment := by
  refine keeps_bind keeps_peek fun t => ?_
  split
  · exact keeps_fail _ _
  · split
    · exact keeps_fail _ _
    · exact keeps_pure _
  · exact keeps_pure _

theorem keeps_asCondition (e : Expr) : Keeps (asCondition e) := by
  unfold asCondition
  split
  · exact keeps_fail _ _
  · exact keeps_pure _

theorem keeps_assignment (op : String) (target value : Expr) (pos : Pos) : Keeps (assignment op target value pos) := by
  unfold assignment
  repeat' split
  all_goals first
    | exact keeps_pure _
    | exact keeps_fail _ _
    | refine keeps_get fun st _ => ?_
      split
      · exact keeps_fail _ _
      · exact keeps_pure _

/-! ### Parsing functions -/

/-- No parsing function with the given fuel takes a bad token. -/
structure KeepsAll (lim : ParseLimits) (fuel : Nat) : Prop where
  expr : ∀ s, Keeps (parseExpr lim fuel s)
  binary : ∀ s parent left, Keeps (parseBinary lim fuel s parent left)
  unary : ∀ s, Keeps (parseUnary lim fuel s)
  primary : ∀ s, Keeps (parsePrimary lim fuel s)
  reserved : ∀ s text pos, Keeps (reservedUse lim fuel s text pos)
  template : ∀ s parts, Keeps (parseTemplate lim fuel s parts)
  items : ∀ s items, Keeps (parseItems lim fuel s items)
  entries : ∀ s entries, Keeps (parseEntries lim fuel s entries)
  call : ∀ s name pos, Keeps (parseCall lim fuel s name pos)
  callArgs : ∀ s name, Keeps (parseCallArgs lim fuel s name)
  args : ∀ s name args, Keeps (parseArgs lim fuel s name args)
  steps : ∀ s e, Keeps (parsePostfix lim fuel s e)
  index : ∀ s e pos safe checked, Keeps (parseIndex lim fuel s e pos safe checked)
  member : ∀ s e pos safe, Keeps (parseMember lim fuel s e pos safe)
  closure : ∀ s, Keeps (parseClosure lim fuel s)
  closureParams : ∀ params, Keeps (closureParams lim fuel params)
  block : ∀ s, Keeps (parseBlock lim fuel s)
  body : ∀ s body, Keeps (parseBody lim fuel s body)
  stmt : ∀ s, Keeps (parseStmt lim fuel s)
  exprStmt : ∀ s, Keeps (parseExprStmt lim fuel s)
  leave : ∀ s how pos, Keeps (parseLeave lim fuel s how pos)
  declaration : ∀ s constant, Keeps (parseLet lim fuel s constant)
  exported : ∀ s, Keeps (parseExport lim fuel s)
  ifElse : ∀ s, Keeps (parseIf lim fuel s)
  whileLoop : ∀ s, Keeps (parseWhile lim fuel s)
  doLoop : ∀ s, Keeps (parseDo lim fuel s)
  forLoop : ∀ s, Keeps (parseFor lim fuel s)
  switch : ∀ s, Keeps (parseSwitch lim fuel s)
  cases : ∀ s cases default pos, Keeps (parseCases lim fuel s cases default pos)
  patterns : ∀ s patterns, Keeps (parsePatterns lim fuel s patterns)
  tryCatch : ∀ s, Keeps (parseTry lim fuel s)
  function : ∀ s, Keeps (parseFunction lim fuel s)
  functionParams : ∀ name params, Keeps (functionParams lim fuel name params)

attribute [grind .] keeps_pure keeps_fail keeps_fail_bind keeps_bind keeps_peek keeps_next keeps_sees keeps_accept keeps_missing
  keeps_expect keeps_deeper keeps_variableName keeps_declare keeps_inScope keeps_use keeps_addFunction keeps_notBlock
  keeps_notAssignment keeps_asCondition keeps_assignment KeepsAll.expr KeepsAll.binary KeepsAll.unary KeepsAll.primary
  KeepsAll.reserved KeepsAll.template KeepsAll.items KeepsAll.entries KeepsAll.call KeepsAll.callArgs KeepsAll.args
  KeepsAll.steps KeepsAll.index KeepsAll.member KeepsAll.closure KeepsAll.closureParams KeepsAll.block KeepsAll.body
  KeepsAll.stmt KeepsAll.exprStmt KeepsAll.leave KeepsAll.declaration KeepsAll.exported KeepsAll.ifElse
  KeepsAll.whileLoop KeepsAll.doLoop KeepsAll.forLoop KeepsAll.switch KeepsAll.cases KeepsAll.patterns
  KeepsAll.tryCatch KeepsAll.function KeepsAll.functionParams

section Functions

variable {lim : ParseLimits} {fuel : Nat}

theorem keeps_binary (h : KeepsAll lim fuel) (s : ParseSettings) (parent : Nat) (left : Expr) :
    Keeps (parseBinary lim (fuel + 1) s parent left) := by
  have hprecedence (t : Placed) : Keeps (parseBinary.operatorPrecedence t) := by
    unfold parseBinary.operatorPrecedence
    split
    · split
      · exact keeps_pure _
      · exact keeps_fail _ _
    · exact keeps_pure _
    · exact keeps_pure _
  have hjoin (t : Placed) (left right : Expr) : Keeps (parseBinary.join t left right) := by
    unfold parseBinary.join
    grind
  rw [parseBinary]
  refine keeps_bind keeps_peek fun t => ?_
  dsimp only
  split
  · exact keeps_pure left
  · refine keeps_bind (hprecedence t) fun p => ?_
    split
    · exact keeps_pure left
    · refine keeps_bind keeps_next fun _ => keeps_bind (h.unary s) fun right => keeps_bind keeps_peek fun following =>
        keeps_bind (hprecedence following) fun q => ?_
      grind

theorem keeps_primary (h : KeepsAll lim fuel) (s : ParseSettings) : Keeps (parsePrimary lim (fuel + 1) s) := by
  rw [parsePrimary]
  refine keeps_bind keeps_peek fun t => ?_
  dsimp only
  split
  · exact keeps_fail_bind _ _ _
  · split <;> grind

theorem keeps_entries (h : KeepsAll lim fuel) (s : ParseSettings) (entries : List (String × Expr)) :
    Keeps (parseEntries lim (fuel + 1) s entries) := by
  rw [parseEntries]
  with_reducible repeat' first | apply keeps_bind | intro _ | split
  all_goals grind

theorem keeps_cases (h : KeepsAll lim fuel) (s : ParseSettings) (cases : List Case) (default : Option Stmt) (pos : Pos) :
    Keeps (parseCases lim (fuel + 1) s cases default pos) := by
  rw [parseCases]
  refine keeps_bind keeps_peek fun t => ?_
  split
  · exact keeps_bind keeps_next fun _ => keeps_pure _
  · exact keeps_fail _ _
  · -- the rest of a case is the same with patterns and for the default
    extract_lets isDefault patternList lastPos finish finishDefault begins
    have hfinish (read : List Expr × Option Expr) : Keeps (finish read) := by
      refine keeps_bind (keeps_expect _ _) fun _ => keeps_bind (h.stmt s) fun action =>
        keeps_bind (keeps_forIn fun e patterns => ?_) fun patterns => ?_
      · grind
      · grind
    have hbegins : Keeps (begins ()) := by
      dsimp only [begins]
      split
      · refine keeps_bind keeps_next fun _ => keeps_bind keeps_peek fun t => keeps_bind (keeps_sees _) fun seen => ?_
        split
        · exact keeps_fail_bind _ _ _
        · exact keeps_bind (keeps_pure _) hfinish
      · refine keeps_bind (h.patterns _ _) fun patterns => keeps_bind (keeps_accept _) fun seen => ?_
        split
        · refine keeps_bind keeps_notBlock fun _ => keeps_bind (h.expr s) fun e =>
            keeps_bind (keeps_asCondition e) fun e => keeps_bind keeps_notAssignment fun _ => ?_
          exact keeps_bind (keeps_pure _) fun _ => keeps_bind (keeps_pure _) hfinish
        · exact keeps_bind (keeps_pure _) fun _ => keeps_bind (keeps_pure _) hfinish
    split
    · exact keeps_fail_bind _ _ _
    · exact hbegins

theorem keeps_closure (h : KeepsAll lim fuel) (s : ParseSettings) : Keeps (parseClosure lim (fuel + 1) s) := by
  rw [parseClosure]
  refine keeps_bind keeps_next fun t => keeps_get fun before hbefore => keeps_bind (keeps_set hbefore) fun _ => ?_
  extract_lets rest
  have hrest (params : List String) : Keeps (rest params) := by
    refine keeps_bind (keeps_modify fun _ h => h) fun _ => keeps_bind (h.stmt _) fun body => keeps_get fun after hafter =>
      keeps_bind (keeps_set hafter) fun _ => keeps_bind (keeps_forIn fun use _ => ?_) fun _ => ?_
    · grind
    · grind
  split
  · exact keeps_bind (keeps_pure _) hrest
  · refine keeps_bind (keeps_accept _) fun seen => ?_
    split
    · exact keeps_bind (keeps_pure _) hrest
    · exact keeps_bind (h.closureParams _) hrest

theorem keeps_function (h : KeepsAll lim fuel) (s : ParseSettings) : Keeps (parseFunction lim (fuel + 1) s) := by
  rw [parseFunction]
  refine keeps_bind (keeps_accept _) fun seen => ?_
  extract_lets define
  have hdefine : Keeps (define ()) := by
    refine keeps_bind keeps_next fun start => keeps_bind (keeps_deeper _) fun inner => keeps_get fun before hbefore =>
      keeps_bind (keeps_set hbefore) fun _ => keeps_bind keeps_next fun t => ?_
    extract_lets named
    have hnamed (name : String) : Keeps (named name) := by
      refine keeps_bind keeps_peek fun p => ?_
      extract_lets rest
      have hrest (params : List String) : Keeps (rest params) := by
        refine keeps_bind (keeps_modify fun _ h => h) fun _ => keeps_bind keeps_peek fun b =>
          keeps_bind (keeps_sees _) fun seen => ?_
        extract_lets body
        have hbody : Keeps (body ()) := by
          refine keeps_bind (h.block inner) fun read => keeps_bind (keeps_modify fun _ h => h) fun _ =>
            keeps_get fun st _ => ?_
          grind
        split
        · exact keeps_fail_bind _ _ _
        · exact hbody
      split
      · exact keeps_bind keeps_next fun _ => keeps_bind (keeps_pure _) hrest
      · exact keeps_bind keeps_next fun _ => keeps_bind (h.functionParams name []) hrest
      · exact keeps_fail_bind _ _ _
    split
    · exact keeps_bind (keeps_pure _) hnamed
    · exact keeps_fail_bind _ _ _
    · exact keeps_fail_bind _ _ _
  split
  · refine keeps_bind keeps_peek fun t => keeps_bind (keeps_sees _) fun seen => ?_
    split
    · exact keeps_fail_bind _ _ _
    · exact hdefine
  · exact hdefine

end Functions

/-- Behind an index another one may follow. -/
theorem keeps_indexEnd {lim : ParseLimits} {fuel : Nat} (h : KeepsAll lim fuel) (s : ParseSettings) (e : Expr) :
    Keeps (do
      let _ ← expect "]" "for a matching [ in this index expression"
      let t ← peek
      match t.token with
      | .mark "[" =>
        let _ ← next
        parseIndex lim fuel (← deeper { s with pos := t.pos }) e t.pos false false
      | .mark "?[" =>
        let _ ← next
        parseIndex lim fuel (← deeper { s with pos := t.pos }) e t.pos true false
      | _ => return e) := by
  grind

theorem keepsAll_succ {lim : ParseLimits} {fuel : Nat} (h : KeepsAll lim fuel) : KeepsAll lim (fuel + 1) where
  expr s := by rw [parseExpr]; grind
  binary := keeps_binary h
  unary s := by rw [parseUnary]; grind
  primary := keeps_primary h
  reserved s text pos := by rw [reservedUse]; grind
  template s parts := by rw [parseTemplate]; grind
  items s items := by
    rw [parseItems]
    refine keeps_bind keeps_peek fun t => ?_
    dsimp only
    split
    · split <;> grind
    · split <;> grind
  entries := keeps_entries h
  call s name pos := by rw [parseCall]; grind
  callArgs s name := by
    rw [parseCallArgs]
    refine keeps_bind (keeps_accept _) fun t => ?_
    dsimp only
    split
    · refine keeps_bind keeps_peek fun t => ?_
      grind
    · grind
  args s name args := by rw [parseArgs]; grind
  steps s e := by rw [parsePostfix]; grind
  index s e pos safe checked := by
    rw [parseIndex]
    refine keeps_bind (keeps_deeper _) fun s' => keeps_bind (h.expr s') fun index => ?_
    have hrest := keeps_indexEnd h s
    grind
  member s e pos safe := by
    rw [parseMember]
    refine keeps_bind keeps_peek fun t => ?_
    dsimp only
    split <;> grind
  closure := keeps_closure h
  closureParams params := by rw [closureParams]; grind
  block s := by rw [parseBlock]; grind
  body s body := by rw [parseBody]; grind
  stmt s := by
    rw [parseStmt]
    refine keeps_bind keeps_peek fun t => ?_
    dsimp only
    split <;> grind
  exprStmt s := by rw [parseExprStmt]; grind
  leave s how pos := by rw [parseLeave]; grind
  declaration s constant := by rw [parseLet]; grind
  exported s := by rw [parseExport]; grind
  ifElse s := by
    rw [parseIf]
    refine keeps_bind keeps_next fun t => keeps_bind keeps_notBlock fun _ => keeps_bind (h.expr s) fun e =>
      keeps_bind (keeps_asCondition e) fun condition => ?_
    grind
  whileLoop s := by rw [parseWhile]; grind
  doLoop s := by
    rw [parseDo]
    refine keeps_bind keeps_next fun t => keeps_bind (h.block _) fun body => keeps_bind keeps_next fun t => ?_
    dsimp only
    split <;> grind
  forLoop s := by
    rw [parseFor]
    with_reducible repeat' first | apply keeps_bind | intro _ | split
    all_goals grind
  switch s := by rw [parseSwitch]; grind
  cases := keeps_cases h
  patterns s patterns := by
    rw [parsePatterns]
    refine keeps_get fun st hst => ?_
    split
    · exact keeps_fail _ _
    · next e st' hrun =>
      refine keeps_bind (keeps_set (h.expr s st e st' hrun hst)) fun _ => ?_
      grind
  tryCatch s := by
    rw [parseTry]
    with_reducible repeat' first | apply keeps_bind | intro _ | split
    all_goals grind
  function := keeps_function h
  functionParams name params := by rw [functionParams]; grind

theorem keepsAll (lim : ParseLimits) (fuel : Nat) : KeepsAll lim fuel := by
  -- one step of fuel pays for every call among the parsing functions
  induction fuel with
  | zero => constructor <;> intros <;> exact keeps_fail _ _
  | succ fuel ih => exact keepsAll_succ ih

/-! ### Scripts -/

/-- No script with a bad token is read to its end. -/
theorem parseGlobal_ne_ok {lim : ParseLimits} {depth fuel : Nat} {body : List Stmt} {st : ParseState}
    (hst : Broken st.tokens) (r : List Stmt × ParseState) : parseGlobal lim depth fuel body st ≠ .ok r := by
  induction fuel generalizing body st r with
  | zero => nofun
  | succ fuel ih =>
    obtain ⟨stmts, st'⟩ := r
    rw [parseGlobal]
    intro h
    obtain ⟨t, st₁, hpeek, hcheck⟩ := bind_eq_ok h
    obtain ⟨rfl, ht⟩ := peek_eq_ok hpeek hst
    have heof : (t.token == .eof) = false := by
      cases htoken : t.token with
      | eof => exact absurd htoken (hst.endless t ht)
      | _ => rfl
    rw [heof] at hcheck
    obtain ⟨stmt, st₂, hstmt, hrest⟩ := bind_eq_ok hcheck
    have hst₂ := (keepsAll lim depth).stmt _ _ _ _ hstmt hst
    split at hrest
    · exact ih hst₂ _ hrest
    · dsimp only at hrest
      obtain ⟨t, st₃, hpeek, hend⟩ := bind_eq_ok hrest
      obtain ⟨rfl, ht⟩ := peek_eq_ok hpeek hst₂
      have heof := hst₂.endless t ht
      generalize t.token = token at hend heof
      split at hend
      · exact heof rfl
      · obtain ⟨_, st₄, hnext, hmore⟩ := bind_eq_ok hend
        exact ih (keeps_next _ _ _ hnext hst₂) _ hmore
      · split at hend
        · exact ih hst₂ _ hend
        · exact missing_ne_ok hend

/-- **Scripts are parsed as a whole.**  A script that parses has no bad token. -/
theorem lexes_of_parse {source : String} {program : Program} (h : parse source {} = .ok program) : Lexes source := by
  intro t ht
  by_contra hbad
  have hbroken : Broken (tokens source none) := .of_tokens ht (by simpa using hbad)
  unfold parse at h
  dsimp only at h
  split at h
  · cases h
  · next r hrun => exact absurd hrun (parseGlobal_ne_ok hbroken _)

end ScriptAgent.Script
