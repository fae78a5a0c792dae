import Mathlib.Data.List.Induction
import ScriptAgent.Proofs.Sandbox.RunConduct
import ScriptAgent.Sandbox.Execution

/-!
# Which calls are tied to a variable

A line that begins like the assignment of a call announces that call before it runs.  The announcement
stands until another line is reached, another call is announced, or a call takes it: the first call of a
tool that answers to the last name of the announced callee.  Nothing else decides, so neither what
stands around the call in its line nor who makes it.
-/

namespace ScriptAgent

/-! ### What is pending while a script runs -/

namespace Deed

/-- The announcement that is pending after a deed. -/
def pending (p : Option Nat) : Deed → Option Nat
  | reach _ => none
  | announce id => some id
  | call _ r _ => stillPending r.assignment p
  | _ => p

/-- Whether a deed leaves an announcement alone. -/
def Spares : Deed → Prop
  | reach _ | announce _ => False
  | call _ r _ => r.assignment = none
  | _ => True

theorem pendingCall_of_makes {env : Env} {d : Deed} {o o' : Outside} (h : d.Makes env o o') :
    o'.pendingCall = d.pending o.pendingCall := by
  cases d with
  | note t =>
    obtain ⟨-, rfl⟩ := h
    rfl
  | record id key v =>
    obtain ⟨-, -, -, -, rfl⟩ := h
    rfl
  | write id key v =>
    obtain ⟨-, -, -, -, -, rfl⟩ := h
    rfl
  | call t r deadline =>
    obtain ⟨-, -, -, -, -, rfl⟩ := h
    rfl
  | _ =>
    obtain rfl := h
    rfl

theorem Spares.pending {d : Deed} (h : d.Spares) (p : Option Nat) : d.pending p = p := by
  cases d with
  | reach | announce => exact h.elim
  | call t r deadline =>
    show stillPending r.assignment p = p
    rw [show r.assignment = none from h]
    rfl
  | _ => rfl

/-- A deed that does not leave an announcement alone ends it. -/
theorem pending_eq_some {d : Deed} {p : Option Nat} {id : Nat} (h : d.pending p = some id) :
    d = .announce id ∨ d.Spares ∧ p = some id := by
  cases d with
  | reach => cases h
  | announce n =>
    cases h
    exact .inl rfl
  | call t r deadline =>
    cases ha : r.assignment with
    | some a =>
      rw [pending, ha] at h
      cases h
    | none =>
      rw [pending, ha] at h
      exact .inr ⟨ha, h⟩
  | _ => exact .inr ⟨trivial, h⟩

end Deed

/-- An announcement is the last of deeds, but for deeds that leave it alone. -/
def Stands (id : Nat) (ds : List Deed) : Prop :=
  ∃ before between, ds = before ++ Deed.announce id :: between ∧ ∀ d ∈ between, d.Spares

/-- What is pending after deeds before which nothing was. -/
theorem foldl_pending_eq_some {ds : List Deed} {id : Nat} :
    ds.foldl Deed.pending none = some id ↔ Stands id ds := by
  induction ds using List.reverseRecOn with
  | nil => exact ⟨nofun, fun ⟨_, _, h, _⟩ => by simp at h⟩
  | append_singleton ds d ih =>
    rw [List.foldl_append, List.foldl_cons, List.foldl_nil]
    constructor
    · intro h
      rcases Deed.pending_eq_some h with rfl | ⟨hd, hp⟩
      · exact ⟨ds, [], rfl, by simp⟩
      · obtain ⟨before, between, rfl, hbetween⟩ := ih.mp hp
        refine ⟨before, between ++ [d], by simp, fun e he => ?_⟩
        rcases List.mem_append.mp he with he | he
        · exact hbetween e he
        · obtain rfl := List.mem_singleton.mp he
          exact hd
    · rintro ⟨before, between, h, hbetween⟩
      rcases List.eq_nil_or_concat between with rfl | ⟨between, e, rfl⟩
      · obtain ⟨-, hd⟩ := List.append_inj' h rfl
        obtain rfl := List.singleton_inj.mp hd
        rfl
      · rw [List.concat_eq_append] at h hbetween
        have hsplit : ds ++ [d] = (before ++ Deed.announce id :: between) ++ [e] := by simp [h]
        obtain ⟨rfl, hd⟩ := List.append_inj' hsplit rfl
        obtain rfl := List.singleton_inj.mp hd
        rw [(hbetween d (by simp)).pending]
        exact ih.mpr ⟨before, between, rfl, fun e he => hbetween e (List.mem_append_left _ he)⟩

theorem Conduct.pendingCall {env : Env} {o o₁ : Outside} {ds : List Deed} (h : Conduct env o ds o₁) :
    o₁.pendingCall = ds.foldl Deed.pending o.pendingCall := by
  induction h with
  | none => rfl
  | next _ _ made ih => rw [Deed.pendingCall_of_makes made, ih, List.foldl_append, List.foldl_cons, List.foldl_nil]

/-- The deeds before one of them. -/
theorem Conduct.split {env : Env} {o o₁ : Outside} {before after : List Deed} {d : Deed}
    (h : Conduct env o (before ++ d :: after) o₁) :
    ∃ o₂ o₃, Conduct env o before o₂ ∧ d.Makes env o₂ o₃ := by
  induction after using List.reverseRecOn generalizing o₁ with
  | nil =>
    generalize hds : before ++ [d] = ds at h
    cases h with
    | none => simp at hds
    | next passed unraised made =>
      obtain ⟨rfl, hd⟩ := List.append_inj' hds rfl
      obtain rfl := List.singleton_inj.mp hd
      exact ⟨_, _, passed, made⟩
  | append_singleton after e ih =>
    generalize hds : before ++ d :: (after ++ [e]) = ds at h
    cases h with
    | none => simp at hds
    | @next _ _ ds' d' passed unraised made =>
      have hsplit : (before ++ d :: after) ++ [e] = ds' ++ [d'] := by simpa using hds
      obtain ⟨rfl, -⟩ := List.append_inj' hsplit rfl
      exact ih passed

/-! ### What lines announce -/

/-- What a line that announces a call was made of. -/
theorem hookLine_call {indent body line : List Char} {n id : Nat} {call : String × String}
    (h : (hookLine indent body line n id).call = some call) :
    Line.assignedCall body = some call ∧ (hookLine indent body line n id).instrumented =
      indent ++ (Line.lineHook n ++ Line.callHook id) ++ body := by
  unfold hookLine at h ⊢
  cases hcomment : Line.comment body with
  | some text => simp [hcomment] at h
  | none =>
    cases hyielded : Line.yielded body with
    | some expr => simp [hcomment, hyielded] at h
    | none =>
      cases hbegins : Line.beginsStatement body with
      | false => simp [hcomment, hyielded, hbegins] at h
      | true =>
        cases hassigned : Line.assignedCall body with
        | none => simp [hcomment, hyielded, hbegins, hassigned] at h
        | some assigned =>
          simp only [hcomment, hyielded, hbegins, hassigned, if_true, Option.some.injEq] at h ⊢
          exact ⟨h, trivial⟩

/-- A call that a line announces: the line of a script begins like the assignment of the call, and
where it stands in the script that runs, the hook with the call's number comes right before it. -/
structure Announces (source hooked : List (List Char)) (id : Nat) (a : Assignment) : Prop where
  reads : ∃ line, source[a.line - 1]? = some line ∧
    Line.assignedCall (Text.dropBlank line) = some (a.target, a.callee) ∧
    hooked[a.line - 1]? = some (line.take (line.length - (Text.dropBlank line).length) ++
      (Line.lineHook a.line ++ Line.callHook id) ++ Text.dropBlank line)

theorem Announces.append {source hooked more more' : List (List Char)} {id : Nat} {a : Assignment}
    (h : Announces source hooked id a) : Announces (source ++ more) (hooked ++ more') id a := by
  obtain ⟨line, hline, hcall, hhooked⟩ := h.reads
  have extend {ls : List (List Char)} {l : List Char} (more : List (List Char)) (hl : ls[a.line - 1]? = some l) :
      (ls ++ more)[a.line - 1]? = some l := by
    obtain ⟨hlt, rfl⟩ := List.getElem?_eq_some_iff.mp hl
    rw [List.getElem?_append_left hlt, List.getElem?_eq_getElem hlt]
  exact ⟨line, extend more hline, hcall, extend more' hhooked⟩

/-- What holds after some lines. -/
structure Hooking.Follows (r : Hooking) (source : List (List Char)) : Prop where
  plain : r.plain.length = source.length
  instrumented : r.instrumented.length = source.length
  calls : ∀ id a, (id, a) ∈ r.calls → Announces source r.instrumented id a

theorem Hooking.Follows.addLine {r : Hooking} {source : List (List Char)} (h : r.Follows source) (line : List Char) :
    (r.addLine line).Follows (source ++ [line]) := by
  have earlier {out : List Char} : ∀ id a, (id, a) ∈ r.calls → Announces (source ++ [line]) (r.instrumented ++ [out]) id a :=
    fun id a hmem => (h.calls id a hmem).append
  refine ⟨by simp [Hooking.addLine, h.plain], by simp [Hooking.addLine, h.instrumented], fun id a hmem => ?_⟩
  unfold Hooking.addLine at hmem ⊢
  dsimp only at hmem ⊢
  split at hmem
  · next target callee hcall =>
    rcases List.mem_append.mp hmem with hmem | hmem
    · exact earlier id a hmem
    · -- the line announces a call of its own
      obtain ⟨rfl, rfl⟩ := Prod.mk.inj (List.mem_singleton.mp hmem)
      split at hcall
      · next hstarting =>
        obtain ⟨hassigned, hout⟩ := hookLine_call hcall
        refine ⟨line, ?_, hassigned, ?_⟩
        · simp [h.plain]
        · simp only [Nat.add_sub_cancel]
          rw [if_pos hstarting, hout, h.plain, ← h.instrumented, List.getElem?_concat_length]
      · cases hcall
  · exact earlier id a hmem

theorem follows_instrument (source : String) :
    (instrument source).Follows (Text.lineChars source.toList) := by
  have go (lines : List (List Char)) : ∀ (r : Hooking) (read : List (List Char)), r.Follows read →
      (lines.foldl Hooking.addLine r).Follows (read ++ lines) := by
    induction lines with
    | nil => exact fun r read h => by simpa using h
    | cons line rest ih =>
      intro r read h
      have := ih _ _ (h.addLine line)
      rwa [List.append_assoc] at this
  exact go _ {} [] ⟨rfl, rfl, nofun⟩

/-- Every call that a compiled script knows is announced by its line. -/
theorem announces_of_compile {source : String} {compiled : Compiled} (h : compile source = .ok compiled) :
    compiled.calls = [] ∨ ∃ hooked, compiled.code = joinLines hooked ∧
      ∀ id a, (id, a) ∈ compiled.calls → Announces (Text.lineChars source.toList) hooked id a := by
  unfold compile at h
  dsimp only at h
  split at h
  · cases h
    exact .inr ⟨(instrument source).instrumented, rfl, (follows_instrument source).calls⟩
  · split at h
    · cases h
      exact .inl rfl
    · cases h

namespace Job

/-- A script that is handed a tool `fetch`, all of whose calls end in one way. -/
def fetching (source : String) (outcome : ToolOutcome) : Job where
  compiled := (compile source).toOption.getD (.plain source)
  tools := [{ name := "fetch", handler := fun _ _ _ => { outcome := some outcome } }]

/-- The input, as it is written, and the assignment of the call in which an execution was suspended. -/
def suspendedIn (e : Execution) : Option (String × Option Assignment) :=
  match e.outcome with
  | .suspended (.interrupt d) => d.toolCall.map fun call => (call.input.compact, call.assignment)
  | _ => none

end Job

end ScriptAgent
