import ScriptAgent.Proofs.Instrument.EndTwins
import ScriptAgent.Proofs.Instrument.EvaluationTwins
import ScriptAgent.Proofs.Instrument.LineByLine
import ScriptAgent.Proofs.Script.Calls
import ScriptAgent.Proofs.Script.Quoting

/-!
# Comments do not become code

A comment that fills its line is replaced by the call of a hook.  The lexer reads that call back as the hook's name,
one literal with the text of the comment and the number of the line, whatever stands in the comment; the parser takes
it for one statement, and all this does is to leave the trace of that text.  Only a text over the size limit of a run
is refused: then nothing of the line is read as code either.
-/

namespace ScriptAgent

open Script (Token Placed Cursor Pos Literal Value LexError ParseLimits ParseSettings ParseState)
open Stateful (bind_apply get_apply modify_apply)

/-! ### The tokens of the call -/

/-- The tokens of the call that records a comment. -/
def commentTokens (text : List Char) (n : Nat) : List Token :=
  [.ident "__record_comment", .mark "(", .str (String.ofList text), .mark ",", .int n, .mark ")", .mark ";"]

section Tokens

variable {cur : Cursor} {indent text rest : List Char} {n : Nat}

theorem commentHook_append (text : List Char) (n : Nat) (rest : List Char) :
    Line.commentHook text n ++ rest = '_' :: "_record_comment".toList ++
      ('(' :: (Line.quote text ++ ',' :: ([' '] ++ (Nat.toDigits 10 n ++ ')' :: ';' :: rest)))) := by
  have hname : "__record_comment(".toList = '_' :: "_record_comment".toList ++ ['('] := by decide +kernel
  have hcomma : ", ".toList = [',', ' '] := by decide +kernel
  have hend : ");".toList = [')', ';'] := by decide +kernel
  unfold Line.commentHook
  rw [String.toList_append, String.toList_append, Text.toList_toString_nat, hname, hcomma, hend]
  generalize "_record_comment".toList = name
  simp only [List.append_assoc, List.cons_append, List.nil_append]

theorem wordToken_recordComment :
    Script.wordToken (String.ofList ('_' :: "_record_comment".toList)) = .ident "__record_comment" := by
  have hname : String.ofList ('_' :: "_record_comment".toList) = "__record_comment" := by decide +kernel
  have hkeyword : Script.keywords.contains "__record_comment" = false := by decide +kernel
  have hreserved : Script.reservedWords.contains "__record_comment" = false := by decide +kernel
  have hshaped : Script.isNameShaped "__record_comment" = true := by decide +kernel
  rw [hname, Script.wordToken, hkeyword, hreserved, hshaped]
  rfl

variable (htext : cur.inText = false) (hindent : ∀ c ∈ indent, Text.isBlank c = true) (hline : '\n' ∉ text)
  (hcur : cur.rest = indent ++ (Line.commentHook text n ++ rest))
include htext hindent hcur

/-- The call begins with the name of the hook. -/
theorem gives_commentOpening (limit : Option Nat) :
    ∃ cur', cur.Gives limit [.ident "__record_comment", .mark "("] cur' ∧
      cur'.rest = Line.quote text ++ ',' :: ([' '] ++ (Nat.toDigits 10 n ++ ')' :: ';' :: rest)) := by
  rw [commentHook_append] at hcur
  have hword : ('_' :: "_record_comment".toList).all Script.isNameChar = true := by decide +kernel
  obtain ⟨cur₁, hname, hrest₁⟩ := Cursor.gives_name limit htext hindent (by decide) (List.all_eq_true.mp hword)
    wordToken_recordComment rfl hcur
  obtain ⟨cur₂, hopen, hrest₂⟩ := Cursor.gives_mark limit "(" hname.inText hrest₁ (by decide) rfl
  exact ⟨cur₂, hname.trans hopen, hrest₂⟩

include hline

/-- The call is read as its name, the text and the number of the line, and nothing else. -/
theorem gives_commentHook {limit : Option Nat} (hn : n < 9223372036854775808) (hfits : ∀ l ∈ limit, utf8Size text ≤ l) :
    ∃ cur', cur.Gives limit (commentTokens text n) cur' ∧ cur'.rest = rest := by
  obtain ⟨cur₂, hopening, hrest₂⟩ := gives_commentOpening htext hindent hcur limit
  obtain ⟨cur₃, hquoted, hrest₃⟩ := Cursor.gives_quoted limit hopening.inText hline hrest₂ (by simp) hfits
  obtain ⟨cur₄, hcomma, hrest₄⟩ := Cursor.gives_mark limit "," hquoted.inText hrest₃ (by decide) rfl
  obtain ⟨cur₅, hnumber, hrest₅⟩ := Cursor.gives_number limit hcomma.inText hn (List.forall_mem_singleton.mpr rfl) hrest₄
  obtain ⟨cur₆, hclose, hrest₆⟩ := Cursor.gives_mark limit ")" hnumber.inText hrest₅ (by decide) rfl
  obtain ⟨cur₇, hend, hrest₇⟩ := Cursor.gives_mark limit ";" hclose.inText hrest₆ (by decide) rfl
  exact ⟨cur₇, ((((hopening.trans hquoted).trans hcomma).trans hnumber).trans hclose).trans hend, hrest₇⟩

/-- A text that is too long is refused where its literal begins. -/
theorem tokens_tooLong_comment {l : Nat} (hlong : l < utf8Size text) (k : Nat) :
    (cur.tokens (some l) (k + 3)).map (·.token) = [.ident "__record_comment", .mark "(", .bad (.tooLong l)] := by
  obtain ⟨cur₂, hopening, hrest₂⟩ := gives_commentOpening htext hindent hcur (some l)
  obtain ⟨placed, hplaced, htokens⟩ := hopening.tokens
  have hread : cur.tokens (some l) (k + 3) = placed ++ cur₂.tokens (some l) (k + 1) := htokens (k + 1)
  rw [hread, List.map_append, hplaced, Cursor.tokens_tooLong hopening.inText hline hrest₂ hlong]
  rfl

end Tokens

/-! ### What the call does -/

namespace Machine

/-- The machine after so many steps more. -/
def stepped (m : Machine) (n : Nat) : Machine :=
  { m with steps := m.steps + n }

theorem stepped_stepped (m : Machine) (a b : Nat) : (m.stepped a).stepped b = m.stepped (a + b) := by
  simp only [stepped, Nat.add_assoc]

theorem micros_stepped_le (m : Machine) (a b : Nat) : (m.stepped a).micros ≤ (m.stepped (a + b)).micros := by
  simp only [micros, stepped, microsPerStep]
  omega

/-- The machine after a comment was recorded. -/
def recorded (m : Machine) (text : String) (n : Nat) : Machine :=
  { m with host := m.host.trace (.comment m.host.millis n text) }

end Machine

namespace Exec

variable {env : Env} {α β : Type} {a : α} {b : β} {k l : Nat}

/-- A computation that gives a value in so many steps and does nothing else, if there is time for them and no signal
was raised. -/
def Takes (env : Env) (x : Exec α) (k : Nat) (a : α) : Prop :=
  ∀ m : Machine, m.raised = none → (m.stepped k).micros < env.deadline → x m = (.ok a, m.stepped k)

theorem takes_pure (a : α) : Takes env (pure a) 0 a :=
  fun _ _ _ => rfl

theorem Takes.bind {x : Exec α} {f : α → Exec β} (hx : Takes env x k a) (hf : Takes env (f a) l b) :
    Takes env (x >>= f) (k + l) b := by
  intro m hraised htime
  have hfirst : x m = (.ok a, m.stepped k) := hx m hraised (Nat.lt_of_le_of_lt (m.micros_stepped_le k l) htime)
  have hthen : f a (m.stepped k) = (.ok b, (m.stepped k).stepped l) := by
    refine hf (m.stepped k) hraised ?_
    rwa [Machine.stepped_stepped]
  rw [bind_apply, hfirst, ← Machine.stepped_stepped]
  exact hthen

theorem takes_tick (pos : Pos) : Takes env (tick env pos) 1 () := by
  intro m hraised htime
  unfold tick
  rw [bind_apply, modify_apply]
  dsimp only
  rw [bind_apply, get_apply]
  simp only [hraised, Option.isSome_none, Bool.false_eq_true, if_false]
  split
  · next hlate => exact absurd htime (Nat.not_lt.mpr hlate)
  · rw [← hraised]
    rfl

theorem takes_literals (n : Nat) (ls : List (Literal × Pos)) :
    Takes env (arguments (evaluate env (n + 1)) (ls.map fun l => .lit l.1 l.2)) ls.length
      (ls.map fun l => Value.ofLiteral l.1) := by
  induction ls with
  | nil => exact takes_pure _
  | cons l ls ih =>
    have hliteral : Takes env (evaluate env (n + 1) (.expr (.lit l.1 l.2))) 1 (Value.ofLiteral l.1) :=
      Takes.bind (f := fun _ => pure (Value.ofLiteral l.1)) (takes_tick l.2) (takes_pure _)
    rw [List.length_cons, Nat.add_comm ls.length]
    exact hliteral.bind (Takes.bind (f := fun vs => pure (Value.ofLiteral l.1 :: vs)) ih (takes_pure _))

/-- The call leaves the trace of a comment, if the script has no function of the hook's name. -/
theorem evaluate_recordComment (hname : ∀ g ∈ env.functions.toList, g.name ≠ "__record_comment") {m : Machine}
    (hraised : m.raised = none) (htime : (m.stepped 3).micros < env.deadline) (text : String) {n : Nat}
    (hn : n < 4294967296) (p q r : Pos) (k : Nat) :
    evaluate env (k + 3) (.stmt (.expr (.call "__record_comment" [.lit (.str text) p, .lit (.int n) q] r))) m =
      (.ok .unit, (m.stepped 3).recorded text n) := by
  have hhook : HostCall.hook? env "__record_comment" [.str text, .int n] =
      HostCall.act (modify fun m : Machine => m.recorded text n) := by
    have hline : ((n : Int) % 4294967296).toNat = n := by omega
    show HostCall.act (trace fun now => .comment now ((n : Int) % 4294967296).toNat text) = _
    rw [hline]
    rfl
  have harguments : Takes env (do
      tick env r
      arguments (evaluate env (k + 1)) [.lit (.str text) p, .lit (.int n) q]) (1 + 2) [.str text, .int n] :=
    (takes_tick r).bind (takes_literals k [(.str text, p), (.int n, q)])
  have heval : evaluate env (k + 3) (.stmt (.expr (.call "__record_comment" [.lit (.str text) p, .lit (.int n) q] r))) =
      (do
        let args ← (do
          tick env r
          arguments (evaluate env (k + 1)) [.lit (.str text) p, .lit (.int n) q])
        callByName env (evaluate env (k + 1)) "__record_comment" args none r) := by
    rw [bind_assoc]
    rfl
  rw [heval, bind_apply, harguments m hraised htime]
  dsimp only
  rw [callByName_hook hname (.inr ⟨text, rfl⟩) hhook r]
  rfl

end Exec

/-! ### A script that is only this call -/

section Alone

variable {indent text : List Char} {n : Nat}

/-- The tokens of the call, wherever each was read. -/
theorem eq_callTokens_of_map {placed : List Placed} (h : placed.map (·.token) = commentTokens text n) :
    ∃ p₁ p₂ p₃ p₄ p₅ p₆ p₇, placed =
      Script.callTokens "__record_comment" (.str (String.ofList text)) (.int n) p₁ p₂ p₃ p₄ p₅ p₆ [⟨.mark ";", p₇⟩] := by
  simp only [commentTokens, List.map_eq_cons_iff, List.map_eq_nil_iff] at h
  obtain ⟨⟨_, p₁⟩, _, rfl, rfl, ⟨_, p₂⟩, _, rfl, rfl, ⟨_, p₃⟩, _, rfl, rfl, ⟨_, p₄⟩, _, rfl, rfl, ⟨_, p₅⟩, _, rfl, rfl,
    ⟨_, p₆⟩, _, rfl, rfl, ⟨_, p₇⟩, _, rfl, rfl, rfl⟩ := h
  exact ⟨p₁, p₂, p₃, p₄, p₅, p₆, p₇, rfl⟩

theorem Backend.one_lt_depth (b : Backend) (sizes : SizeLimits) : 1 < (b.parseLimits sizes).depth := by
  cases b <;> simp [Backend.parseLimits]

theorem rest_start_commentHook (indent text : List Char) (n : Nat) :
    (Cursor.start (String.ofList (indent ++ Line.commentHook text n))).rest =
      indent ++ (Line.commentHook text n ++ []) := by
  rw [List.append_nil]
  exact String.toList_ofList

theorem length_commentHook (text : List Char) (n : Nat) : 8 ≤ (Line.commentHook text n).length := by
  have hname : "__record_comment(".toList.length = 17 := by decide +kernel
  unfold Line.commentHook
  rw [List.length_append, List.length_append, hname]
  omega

/-- The call has more characters than tokens, so that the lexer gets to its end. -/
theorem length_ofList_commentHook (indent text : List Char) (n : Nat) :
    8 ≤ (String.ofList (indent ++ Line.commentHook text n)).length := by
  rw [String.length_ofList, List.length_append]
  exact Nat.le_add_left_of_le (length_commentHook text n)

variable (hindent : ∀ c ∈ indent, Text.isBlank c = true) (hline : '\n' ∉ text)
include hindent hline

/-- The lexer reads the tokens of the call and the end of the script. -/
theorem tokens_commentHook {limit : Option Nat} (hn : n < 9223372036854775808) (hfits : ∀ l ∈ limit, utf8Size text ≤ l) :
    ∃ placed pos, Script.tokens (String.ofList (indent ++ Line.commentHook text n)) limit = placed ++ [⟨.eof, pos⟩] ∧
      placed.map (·.token) = commentTokens text n := by
  obtain ⟨cur', hgives, hrest⟩ := gives_commentHook rfl hindent hline (rest_start_commentHook indent text n) hn hfits
  obtain ⟨placed, hplaced, htokens⟩ := hgives.tokens
  obtain ⟨k, hk⟩ := Nat.exists_eq_add_of_le' (length_ofList_commentHook indent text n)
  obtain ⟨pos, hend⟩ := Cursor.tokens_of_rest_eq_nil hgives.inText hrest limit (k + 2)
  refine ⟨placed, pos, ?_, hplaced⟩
  rw [Script.tokens, hk, ← hend]
  exact htokens (k + 3)

theorem tokens_commentHook_tooLong {l : Nat} (hlong : l < utf8Size text) :
    (Script.tokens (String.ofList (indent ++ Line.commentHook text n)) (some l)).map (·.token) =
      [.ident "__record_comment", .mark "(", .bad (.tooLong l)] := by
  obtain ⟨k, hk⟩ := Nat.exists_eq_add_of_le' (length_ofList_commentHook indent text n)
  rw [Script.tokens, hk]
  exact tokens_tooLong_comment rfl hindent hline (rest_start_commentHook indent text n) hlong (k + 7)

/-- The parser takes the script for one statement, the call. -/
theorem parse_commentHook (lim : ParseLimits) (hn : n < 9223372036854775808) (hdepth : 1 < lim.depth)
    (hfits : ∀ l ∈ lim.text, utf8Size text ≤ l) :
    ∃ p q r, Script.parse (String.ofList (indent ++ Line.commentHook text n)) lim =
      .ok ⟨[], [.expr (.call "__record_comment" [.lit (.str (String.ofList text)) p, .lit (.int n) q] r)]⟩ := by
  obtain ⟨placed, pos, htokens, hplaced⟩ := tokens_commentHook hindent hline hn hfits
  obtain ⟨p₁, p₂, p₃, p₄, p₅, p₆, p₇, rfl⟩ := eq_callTokens_of_map hplaced
  exact ⟨p₃, p₅, p₁, Script.parse_call (.str _) (.int _) hdepth htokens⟩

variable {j : Job} (host : Host)
  (hcode : j.compiled.code = String.ofList (indent ++ Line.commentHook text n))
include hcode

/-- The run of the call alone gives the empty value and leaves one trace, that of the comment. -/
theorem run_commentHook (hn : n < 4294967296) (htime : 0 < j.limits.timeout)
    (hfits : utf8Size text ≤ (j.backend.sizeLimits j.limits.memory).text) :
    (j.run host).ending = .completed .null ∧
      (j.run host).machine.host.traces = host.traces ++ [.comment host.millis n (String.ofList text)] := by
  obtain ⟨p, q, r, hparse⟩ := parse_commentHook hindent hline _ (by omega : n < 9223372036854775808)
    (j.backend.one_lt_depth _) (by simpa [Backend.parseLimits] using hfits)
  rw [← hcode] at hparse
  rw [Job.run_of_parse j host hparse]
  have htimely : ((j.machine host).stepped 3).micros < (j.env host []).deadline := by
    show host.micros + (0 + 3) * microsPerStep < host.micros + j.limits.timeout * 1000
    unfold microsPerStep
    omega
  obtain ⟨k, hfuel⟩ : ∃ k, nestingFuel = k + 3 := ⟨999997, rfl⟩
  have hrun : evaluate (j.env host []) (k + 3) _ (j.machine host) = _ :=
    Exec.evaluate_recordComment (by simp [Job.env]) rfl htimely (String.ofList text) hn p q r k
  rw [hfuel, runAll, hrun]
  exact ⟨congrArg Ending.completed (Machine.toJson_unit _ _), rfl⟩

/-- The run of the call alone fails without a trace if the text is over the limit of the run. -/
theorem run_commentHook_tooLong (hlong : (j.backend.sizeLimits j.limits.memory).text < utf8Size text) :
    (∃ failure, (j.run host).ending = .failed failure ∧ failure.kind = .execution ∧
      failure.message = (LexError.tooLong (j.backend.sizeLimits j.limits.memory).text).message) ∧
      (j.run host).machine.host = host := by
  have htokens := tokens_commentHook_tooLong (n := n) hindent hline hlong
  simp only [List.map_eq_cons_iff, List.map_eq_nil_iff] at htokens
  obtain ⟨⟨_, p₁⟩, _, htokens, rfl, ⟨_, p₂⟩, _, rfl, rfl, ⟨_, p₃⟩, _, rfl, rfl, rfl⟩ := htokens
  have hparse := Script.parse_refused (Nat.lt_of_succ_lt (j.backend.one_lt_depth _)) htokens
  rw [← hcode] at hparse
  unfold Job.run
  rw [hparse]
  exact ⟨⟨_, rfl, rfl, rfl⟩, rfl⟩

end Alone

/-! ### Any line that is a comment -/

/-- Characters in a script that record a text as the comment of a line, and do nothing else. -/
structure SaysComment (emitted text : List Char) (n : Nat) : Prop where
  /-- Wherever no text is open the lexer reads the tokens of the call, and goes on behind them. -/
  tokens : ∀ (limit : Option Nat) (cur : Cursor) (rest : List Char), cur.inText = false → cur.rest = emitted ++ rest →
    (∀ l ∈ limit, utf8Size text ≤ l) → ∃ cur', cur.Gives limit (commentTokens text n) cur' ∧ cur'.rest = rest
  /-- A text over the limit is refused where its literal begins, and the lexer stops there. -/
  tokens_tooLong : ∀ (l : Nat) (cur : Cursor) (rest : List Char), cur.inText = false → cur.rest = emitted ++ rest →
    l < utf8Size text → ∀ k, (cur.tokens (some l) (k + 3)).map (·.token) =
      [.ident "__record_comment", .mark "(", .bad (.tooLong l)]
  /-- Where a statement may begin these tokens are one statement, which leaves the trace of the comment. -/
  statement : ∀ (placed more : List Placed) (lim : ParseLimits) (s : ParseSettings) (st : ParseState) (k : Nat),
    placed.map (·.token) = commentTokens text n → s.level + 1 < s.maxLevel → st.tokens = placed ++ more →
    ∃ stmt, Script.parseStmt lim (k + 13) s st = .ok (stmt, { st with tokens := placed.drop 6 ++ more }) ∧
      ∀ (env : Env) (m : Machine) (k : Nat), (∀ g ∈ env.functions.toList, g.name ≠ "__record_comment") →
        m.raised = none → (m.stepped 3).micros < env.deadline →
        evaluate env (k + 3) (.stmt stmt) m = (.ok .unit, (m.stepped 3).recorded (String.ofList text) n)
  /-- A run of nothing else ends with the empty value and leaves that trace alone. -/
  run : ∀ (j : Job) (host : Host), j.compiled.code = String.ofList emitted → 0 < j.limits.timeout →
    utf8Size text ≤ (j.backend.sizeLimits j.limits.memory).text →
    (j.run host).ending = .completed .null ∧
      (j.run host).machine.host.traces = host.traces ++ [.comment host.millis n (String.ofList text)]
  /-- A run of nothing else that has a text over its limit fails with that and leaves no trace. -/
  run_tooLong : ∀ (j : Job) (host : Host), j.compiled.code = String.ofList emitted →
    (j.backend.sizeLimits j.limits.memory).text < utf8Size text →
    (∃ failure, (j.run host).ending = .failed failure ∧ failure.kind = .execution ∧
      failure.message = (LexError.tooLong (j.backend.sizeLimits j.limits.memory).text).message) ∧
      (j.run host).machine.host = host

theorem saysComment_commentHook {indent text : List Char} {n : Nat} (hindent : ∀ c ∈ indent, Text.isBlank c = true)
    (hline : '\n' ∉ text) (hn : n < 4294967296) : SaysComment (indent ++ Line.commentHook text n) text n where
  tokens limit cur rest htext hcur hfits :=
    gives_commentHook htext hindent hline (by rw [hcur, List.append_assoc]) (by omega) hfits
  tokens_tooLong l cur rest htext hcur hlong k :=
    tokens_tooLong_comment htext hindent hline (by rw [hcur, List.append_assoc]) hlong k
  statement placed more lim s st k hplaced hlevel htokens := by
    obtain ⟨p₁, p₂, p₃, p₄, p₅, p₆, p₇, rfl⟩ := eq_callTokens_of_map hplaced
    refine ⟨_, Script.parseStmt_call (.str _) (.int _) hlevel htokens k, fun env m k hname hraised htime => ?_⟩
    exact Exec.evaluate_recordComment hname hraised htime _ hn _ _ _ k
  run j host hcode htime hfits := run_commentHook hindent hline host hcode hn htime hfits
  run_tooLong j host hcode hlong := run_commentHook_tooLong hindent hline host hcode hlong

end ScriptAgent
