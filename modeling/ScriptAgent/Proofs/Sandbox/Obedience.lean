import ScriptAgent.Proofs.Sandbox.Crossing

/-!
# Computations that act by deeds

A computation obeys if, started with no signal raised, it changes the outside by deeds only, and
halts as soon as one of them raises a signal or is a call that was given up.  Beside it stands the
computation that another backend carries out in its place: unless a limit hinders one of the two, they
do the same, as long as every value that crosses the border passes.  Sequencing keeps that, and so does
catching, as long as the handlers let pass what comes from outside.
-/

namespace ScriptAgent

open Script (Value Fault Pos)
open Stateful (bind_apply tryCatch_apply get_apply set_apply modify_apply throw_apply)

/-- Why a computation was ended from outside the script, if it was. -/
def Stop.halt? : Stop → Option Halt
  | .halted why _ => some why
  | _ => none

@[simp] theorem Stop.halt?_fillPos (pos : Pos) (s : Stop) : (s.fillPos pos).halt? = s.halt? := by
  cases s <;> rfl

theorem Stop.halt?_eq_some {s : Stop} {why : Halt} : s.halt? = some why ↔ ∃ pos, s = .halted why pos := by
  cases s <;> simp [halt?]

theorem Stop.halt?_eq_none {s : Stop} (h : s.isForeign = false) : s.halt? = none := by
  cases s with
  | halted => cases h
  | _ => rfl

/-- Why an outcome was ended from outside the script, if it was. -/
def haltOf {α : Type} : Except Stop α → Option Halt
  | .ok _ => none
  | .error s => s.halt?

/-- Whether only the host ends a run so: by giving up a call, or because a signal was raised. -/
def Halt.isImposed : Halt → Bool
  | .aborted _ | .suspended => true
  | .timedOut | .outOfMemory => false

/-- Whether an outcome is one that only the host brings about. -/
def imposed (h : Option Halt) : Bool :=
  h.any Halt.isImposed

theorem imposed_of_unforeign {s : Stop} (h : s.isForeign = false) : imposed s.halt? = false := by
  rw [Stop.halt?_eq_none h]
  rfl

/-- How a computation ends, `h`, after its last deed.  If that raised no signal and was not given up, it does
not end as only the host brings about; otherwise it is halted, for the reason for which the deed was given up. -/
def EndsAfter (raised : Option Signal) (g h : Option Halt) : Prop :=
  raised = none ∧ g = none ∧ imposed h = false ∨
    h.isSome ∧ (raised.isSome ∨ g.isSome) ∧ ∀ why, g = some why → h = some why

/-- The machine after a computation is reached by deeds; a signal raised by one of them halts it, and so
does a call that is given up, with the reason for that.  Nothing else ends it as only the host does. -/
def Conducted (env : Env) (m : Machine) (h : Option Halt) (m' : Machine) : Prop :=
  ∃ ds g, Course env m.outside ds g m'.outside ∧ EndsAfter m'.raised g h

namespace Conducted

variable {env : Env} {m m₁ m₂ : Machine} {h h' : Option Halt}

theorem own (hm : m.raised = none) (ho : m₁.outside = m.outside) (hi : imposed h = false) : Conducted env m h m₁ :=
  ⟨[], none, ho ▸ .none _, .inl ⟨(congrArg Outside.raised ho).trans hm, rfl, hi⟩⟩

theorem deed {d : Deed} (hm : m.raised = none) (hd : d.Makes env m.outside m₁.outside)
    (hg : EndsAfter m₁.raised (d.givenUp? env m.outside) h) : Conducted env m h m₁ :=
  ⟨[d], _, .one hm hd, hg⟩

/-- What did not halt raised no signal. -/
theorem unraised (hm : Conducted env m none m₁) : m₁.raised = none := by
  obtain ⟨_, _, _, hr | hr⟩ := hm
  · exact hr.1
  · cases hr.1

theorem trans (hm : Conducted env m none m₁) (hm₁ : Conducted env m₁ h' m₂) : Conducted env m h' m₂ := by
  obtain ⟨ds, g, hds, ⟨-, rfl, -⟩ | ⟨hnot, -⟩⟩ := hm
  · obtain ⟨ds', g, hds', hs⟩ := hm₁
    exact ⟨ds ++ ds', g, hds.trans hds', hs⟩
  · cases hnot

/-- What the script does to its own part afterwards adds no deed. -/
theorem then_own (hm : Conducted env m h m₁) (ho : m₂.outside = m₁.outside) : Conducted env m h m₂ := by
  obtain ⟨ds, g, hds, hr⟩ := hm
  have hr₂ : m₂.raised = m₁.raised := congrArg Outside.raised ho
  exact ⟨ds, g, ho ▸ hds, hr₂ ▸ hr⟩

end Conducted

/-! ### Results -/

/-- The result of a computation, `p`, is reached by deeds, and that of the one beside it, `q`, is the same
unless one of the two was hindered or something did not cross.  A result holds an outcome and a machine. -/
structure Accord {ρ α : Type} (outcome : ρ → Except Stop α) (env : Env) (m : Machine) (p q : ρ × Machine) :
    Prop where
  conducted : Conducted env m (haltOf (outcome p.1)) p.2
  across : Across env m p.2 (unhindered (outcome p.1) = true → unhindered (outcome q.1) = true → q = p)

namespace Accord

variable {ρ σ α β : Type} {outcome : ρ → Except Stop α} {outcome' : σ → Except Stop β} {env : Env} {m : Machine}
  {p q : ρ × Machine} {p' q' : σ × Machine}

/-- A computation that only the script sees. -/
theorem own (hm : m.raised = none) (ho : p.2.outside = m.outside) (hi : imposed (haltOf (outcome p.1)) = false) :
    Accord outcome env m p p :=
  ⟨.own hm ho hi, .own ho fun _ _ => rfl⟩

/-- A computation beside which another one does the same if what crosses passes. -/
theorem crossing (hc : Conducted env m (haltOf (outcome p.1)) p.2) {cs : List Json}
    (hcs : Crossing env m.outside cs p.2.outside) (h : (∀ c ∈ cs, c.Passes) → q = p) : Accord outcome env m p q :=
  ⟨hc, cs, hcs, fun hall _ _ => h hall⟩

/-- A computation that a limit hinders. -/
theorem hindered (hm : m.raised = none) (ho : p.2.outside = m.outside) (hi : imposed (haltOf (outcome p.1)) = false)
    (h : unhindered (outcome p.1) = false) : Accord outcome env m p q :=
  ⟨.own hm ho hi, .own ho fun hfree => absurd hfree (by simp [h])⟩

/-- Both computations go on with what came of them if it is the same. -/
theorem goOn (h : Accord outcome env m p q) (hh : haltOf (outcome p.1) = none)
    (hp : unhindered (outcome' p'.1) = true → unhindered (outcome p.1) = true)
    (hq : unhindered (outcome' q'.1) = true → unhindered (outcome q.1) = true) {r : σ × Machine}
    (hr : q = p → q' = r) (hrest : p.2.raised = none → Accord outcome' env p.2 p' r) : Accord outcome' env m p' q' := by
  obtain ⟨hconducted, hacross⟩ := h
  rw [hh] at hconducted
  obtain ⟨hconducted', hacross'⟩ := hrest hconducted.unraised
  refine ⟨hconducted.trans hconducted', hacross.trans hacross' fun hsame hsame' hfree hfree' => ?_⟩
  have hqr : q' = r := hr (hsame (hp hfree) (hq hfree'))
  rw [hqr] at hfree' ⊢
  exact hsame' hfree hfree'

/-- Both computations are over but for what the script does to its own part. -/
theorem finish (h : Accord outcome env m p q) (ho : p'.2.outside = p.2.outside)
    (hh : haltOf (outcome' p'.1) = haltOf (outcome p.1))
    (hp : unhindered (outcome' p'.1) = true → unhindered (outcome p.1) = true)
    (hq : unhindered (outcome' q'.1) = true → unhindered (outcome q.1) = true) (hr : q = p → q' = p') :
    Accord outcome' env m p' q' := by
  obtain ⟨hconducted, hacross⟩ := h
  refine ⟨hh ▸ hconducted.then_own ho, hacross.then_own ho fun hsame hfree hfree' => ?_⟩
  exact hr (hsame (hp hfree) (hq hfree'))

/-- What is made of both results, if it leaves the outside and the stops from outside as they are. -/
theorem map (h : Accord outcome env m p q) (F : ρ × Machine → σ × Machine) (ho : ∀ r, (F r).2.outside = r.2.outside)
    (hh : ∀ r, haltOf (outcome' (F r).1) = haltOf (outcome r.1))
    (hu : ∀ r, unhindered (outcome' (F r).1) = unhindered (outcome r.1)) : Accord outcome' env m (F p) (F q) := by
  refine h.finish (ho p) (hh p) ?_ ?_ (congrArg F)
  · rw [hu p]
    exact id
  · rw [hu q]
    exact id

/-- The second computation reads values outside, and does as another one if they pass. -/
theorem reads (h : Accord outcome env m p q) {vs : List Json} (held : ∀ v ∈ vs, m.outside.Holds v) {r : ρ × Machine}
    (hr : (∀ v ∈ vs, v.Passes) → r = q) : Accord outcome env m p r := by
  refine ⟨h.conducted, (Across.reads held hr).trans h.across fun heq hsame => ?_⟩
  rwa [heq]

/-- The second computation does as another one if values have the text there that they have in the first one. -/
theorem texts (h : Accord outcome env m p q) (vs : List Value) {r : ρ × Machine}
    (hr : (∀ v ∈ vs, m.text .isolated v = m.text env.backend v) → r = q) : Accord outcome env m p r := by
  have held : ∀ c ∈ vs.flatMap m.shown, m.outside.Holds c := by
    intro c hc
    obtain ⟨v, -, hv⟩ := List.mem_flatMap.mp hc
    exact Machine.holds_of_shown hv
  refine h.reads held fun hpass => hr fun v hv => m.text_isolated env.backend fun c hc => hpass c ?_
  exact List.mem_flatMap.mpr ⟨v, hv, hc⟩

end Accord

namespace Exec

variable {env : Env} {α β : Type}

/-- A computation obeys on a machine, and so does the one beside it. -/
def ObeysOn (env : Env) (m : Machine) (x y : Exec α) : Prop :=
  Accord id env m (x m) (y m)

/-- A computation obeys on every machine on which no signal is raised, and so does the one beside it. -/
def Obeys (env : Env) (x y : Exec α) : Prop :=
  ∀ m, m.raised = none → ObeysOn env m x y

/-! ### Sequences -/

/-- What hinders a computation in its first part hinders it as a whole. -/
theorem unhindered_of_bind {m : Machine} {x : Exec α} {f : α → Exec β} (h : unhindered ((x >>= f) m).1 = true) :
    unhindered (x m).1 = true := by
  rcases hx : x m with ⟨s | a, m₁⟩
  · rwa [bind_apply, hx] at h
  · rfl

theorem ObeysOn.bind {m : Machine} {x y : Exec α} {f g : α → Exec β} (hx : ObeysOn env m x y)
    (hf : ∀ a m₁, x m = (.ok a, m₁) → m₁.raised = none → ObeysOn env m₁ (f a) (g a)) :
    ObeysOn env m (x >>= f) (y >>= g) := by
  rcases hr : x m with ⟨s | a, m₁⟩
  · have hrun : (x >>= f) m = (.error s, m₁) := by rw [bind_apply, hr]
    refine Accord.finish hx ?_ ?_ unhindered_of_bind unhindered_of_bind fun heq => ?_
    · rw [hrun, hr]
    · rw [hrun, hr]
      rfl
    · rw [hrun, bind_apply, heq, hr]
  · have hrun : (x >>= f) m = f a m₁ := by rw [bind_apply, hr]
    refine Accord.goOn hx ?_ unhindered_of_bind unhindered_of_bind (r := g a m₁) (fun heq => ?_) ?_
    · rw [hr]
      rfl
    · rw [bind_apply, heq, hr]
    · rw [hrun, hr]
      exact hf a m₁ hr

theorem ObeysOn.own {m : Machine} {x : Exec α} (h : m.raised = none) (ho : (x m).2.outside = m.outside)
    (hi : imposed (haltOf (x m).1) = false) : ObeysOn env m x x :=
  Accord.own h ho hi

theorem ObeysOn.get_bind {m : Machine} {f g : Machine → Exec β} (h : ObeysOn env m (f m) (g m)) :
    ObeysOn env m (get >>= f) (get >>= g) := by
  unfold ObeysOn at *
  simpa only [bind_apply, get_apply] using h

theorem ObeysOn.set_bind {m m' : Machine} {f g : PUnit → Exec β} (hm : m.raised = none)
    (ho : m'.outside = m.outside) (h : ObeysOn env m' (f ()) (g ())) :
    ObeysOn env m (set m' >>= f) (set m' >>= g) := by
  have hset : ObeysOn env m (set m' : Exec PUnit) (set m') := .own hm ho rfl
  refine hset.bind fun a m₁ hr _ => ?_
  obtain ⟨-, rfl⟩ := Prod.mk.inj hr
  exact h

/-- A limit, under conditions that may differ, before the rest of a computation. -/
theorem ObeysOn.unless {m : Machine} {c c' : Prop} [Decidable c] [Decidable c'] {s s' : Stop} {f g : PUnit → Exec β}
    (hs : s.isLimit = true) (hi : imposed s.halt? = false) (hs' : s'.isLimit = true) (hm : m.raised = none)
    (hf : ObeysOn env m (f ⟨⟩) (g ⟨⟩)) :
    ObeysOn env m (if c then throw s >>= f else f ⟨⟩) (if c' then throw s' >>= g else g ⟨⟩) := by
  split
  · exact Accord.hindered hm rfl hi (by simp [bind_apply, unhindered, hs])
  · split
    · refine ⟨hf.conducted, hf.across.then_own rfl fun _ _ hfree' => ?_⟩
      simp [bind_apply, unhindered, hs'] at hfree'
    · exact hf

theorem Obeys.bind {x y : Exec α} {f g : α → Exec β} (hx : Obeys env x y) (hf : ∀ a, Obeys env (f a) (g a)) :
    Obeys env (x >>= f) (y >>= g) :=
  fun m hm => (hx m hm).bind fun a m₁ _ h₁ => hf a m₁ h₁

theorem Obeys.get_bind {f g : Machine → Exec β} (h : ∀ m, Obeys env (f m) (g m)) :
    Obeys env (get >>= f) (get >>= g) :=
  fun m hm => .get_bind (h m m hm)

theorem Obeys.own {x : Exec α} (ho : ∀ m, (x m).2.outside = m.outside)
    (hi : ∀ m, imposed (haltOf (x m).1) = false) : Obeys env x x :=
  fun m hm => .own hm (ho m) (hi m)

theorem obeys_pure (a : α) : Obeys env (pure a : Exec α) (pure a) := .own (fun _ => rfl) fun _ => rfl

theorem obeys_throw (s : Stop) (hi : imposed s.halt? = false) : Obeys env (throw s : Exec α) (throw s) :=
  .own (fun _ => rfl) fun _ => hi

theorem obeys_modify {f : Machine → Machine} (ho : ∀ m, (f m).outside = m.outside) :
    Obeys env (modify f : Exec Unit) (modify f) := .own ho fun _ => rfl

theorem Obeys.ite {c : Prop} [Decidable c] {x x' y y' : Exec α} (hx : Obeys env x x') (hy : Obeys env y y') :
    Obeys env (if c then x else y) (if c then x' else y') := by
  split
  · exact hx
  · exact hy

/-- A guard before the rest of a computation. -/
theorem Obeys.guard {c : Prop} [Decidable c] {x y : Exec PUnit} {f g : PUnit → Exec β} (hx : Obeys env x y)
    (hf : Obeys env (f ⟨⟩) (g ⟨⟩)) : Obeys env (if c then x >>= f else f ⟨⟩) (if c then y >>= g else g ⟨⟩) :=
  .ite (hx.bind fun _ => hf) hf

/-! ### Handlers -/

/-- Handlers that end with what comes from outside where they are given it, perhaps at another place: alike, and
without a deed. -/
def PassOn (h h' : Stop → Exec α) : Prop :=
  ∀ s m, s.isForeign = true → ∃ s' m', h s m = (.error s', m') ∧ h' s m = (.error s', m') ∧
    m'.outside = m.outside ∧ s'.halt? = s.halt? ∧ s'.isLimit = s.isLimit

/-- What hinders a computation hinders it also under a handler that ends with it. -/
theorem unhindered_of_catch {m : Machine} {x : Exec α} {h : Stop → Exec α}
    (hp : ∀ s m, s.isForeign = true → ∃ s' m', h s m = (.error s', m') ∧ s'.isLimit = s.isLimit)
    (hfree : unhindered ((tryCatch x h) m).1 = true) : unhindered (x m).1 = true := by
  rcases hx : x m with ⟨s | a, m₁⟩
  · rw [tryCatch_apply, hx] at hfree
    cases hs : s.isLimit with
    | false => simp [unhindered, hs]
    | true =>
      obtain ⟨s', m', hrun, hs'⟩ := hp s m₁ (Stop.isForeign_of_isLimit hs)
      simp [hrun, unhindered, hs', hs] at hfree
  · rfl

theorem Obeys.catching {x y : Exec α} {h h' : Stop → Exec α} (hx : Obeys env x y) (hp : PassOn h h')
    (hh : ∀ s, s.isForeign = false → Obeys env (h s) (h' s)) : Obeys env (tryCatch x h) (tryCatch y h') := by
  intro m hm
  have hxm := hx m hm
  have under : unhindered ((tryCatch x h) m).1 = true → unhindered (x m).1 = true :=
    unhindered_of_catch fun s m hs => by
      obtain ⟨s', m', hrun, -, -, -, hl⟩ := hp s m hs
      exact ⟨s', m', hrun, hl⟩
  have under' : unhindered ((tryCatch y h') m).1 = true → unhindered (y m).1 = true :=
    unhindered_of_catch fun s m hs => by
      obtain ⟨s', m', -, hrun, -, -, hl⟩ := hp s m hs
      exact ⟨s', m', hrun, hl⟩
  rcases hr : x m with ⟨s | a, m₁⟩
  · have hrun : (tryCatch x h) m = h s m₁ := by rw [tryCatch_apply, hr]
    have hrun' (heq : y m = x m) : (tryCatch y h') m = h' s m₁ := by rw [tryCatch_apply, heq, hr]
    -- what comes from outside is passed on; the rest is left to the handlers
    cases hs : s.isForeign with
    | true =>
      obtain ⟨s', m', hrun₁, hrun₁', ho, hhalt, -⟩ := hp s m₁ hs
      refine Accord.finish hxm ?_ ?_ under under' fun heq => ?_
      · rw [hrun, hrun₁, hr]
        exact ho
      · rw [hrun, hrun₁, hr]
        exact hhalt
      · rw [hrun' heq, hrun₁', hrun, hrun₁]
    | false =>
      refine Accord.goOn hxm ?_ under under' hrun' ?_
      · rw [hr]
        exact Stop.halt?_eq_none hs
      · rw [hrun, hr]
        exact hh s hs m₁
  · have hrun : (tryCatch x h) m = (.ok a, m₁) := by rw [tryCatch_apply, hr]
    refine Accord.finish hxm ?_ ?_ under under' fun heq => ?_
    · rw [hrun, hr]
    · rw [hrun, hr]
    · rw [hrun, tryCatch_apply, heq, hr]

/-- Handlers that throw again what comes from outside. -/
theorem passOn_throw {h h' : Stop → Exec α} (hk : ∀ s, s.isForeign = true → h s = throw s)
    (hk' : ∀ s, s.isForeign = true → h' s = throw s) : PassOn h h' := by
  intro s m hs
  rw [hk s hs, hk' s hs]
  exact ⟨s, m, rfl, rfl, rfl, rfl, rfl⟩

/-- A handler that tidies up what is the script's own and fails again. -/
theorem Obeys.tidy {x y : Exec α} {f : Stop → Machine → Machine} {g : Stop → Stop} (hx : Obeys env x y)
    (ho : ∀ s m, (f s m).outside = m.outside) (hg : ∀ s, (g s).halt? = s.halt?) (hl : ∀ s, (g s).isLimit = s.isLimit) :
    Obeys env (tryCatch x fun s => do modify (f s); throw (g s))
      (tryCatch y fun s => do modify (f s); throw (g s)) := by
  refine hx.catching (fun s m _ => ⟨g s, f s m, rfl, rfl, ho s m, hg s, hl s⟩) fun s hs => ?_
  refine (obeys_modify (ho s)).bind fun _ => obeys_throw _ ?_
  rw [hg s]
  exact imposed_of_unforeign hs

theorem obeys_fault (f : Fault) (pos : Pos) : Obeys env (fault f pos : Exec α) (fault f pos) := obeys_throw _ rfl

theorem obeys_ofExcept (r : Except Fault α) (pos : Pos) : Obeys env (ofExcept r pos) (ofExcept r pos) := by
  cases r with
  | ok v => exact obeys_pure v
  | error f => exact obeys_fault f pos

theorem Obeys.at_ {x y : Exec α} (hx : Obeys env x y) (pos : Pos) : Obeys env (Exec.at_ pos x) (Exec.at_ pos y) := by
  refine hx.catching (fun s m _ => ?_) fun s hs => obeys_throw _ ?_
  · exact ⟨s.fillPos pos, m, rfl, rfl, rfl, s.halt?_fillPos pos, s.isLimit_fillPos pos⟩
  · rw [s.halt?_fillPos]
    exact imposed_of_unforeign hs

/-! ### What only the script sees -/

variable {z : SizeLimits}

theorem obeys_tick (pos : Pos) : Obeys env (tick env pos) (tick (env.isolated z) pos) := by
  have same : tick (env.isolated z) pos = tick env pos := rfl
  rw [same]
  refine Obeys.bind (obeys_modify fun _ => rfl) fun _ m hm => .get_bind ?_
  rw [hm]
  refine Obeys.ite (obeys_throw _ rfl) (obeys_pure _) m hm

/-- A limit at the end of a computation. -/
theorem ObeysOn.last {m : Machine} {c c' : Prop} [Decidable c] [Decidable c'] {s s' : Stop}
    (hs : s.isLimit = true) (hi : imposed s.halt? = false) (hs' : s'.isLimit = true) (hm : m.raised = none) :
    ObeysOn env m (do if c then throw s : Exec PUnit) (do if c' then throw s') := by
  have h : ObeysOn env m (pure ⟨⟩ : Exec PUnit) (pure ⟨⟩) := .own hm rfl rfl
  exact .unless (f := pure) (g := pure) hs hi hs' hm h

theorem obeys_noteRead (pos : Pos) : Obeys env (noteRead env pos) (noteRead (env.isolated z) pos) := by
  intro m hm
  exact .get_bind (.set_bind hm rfl (.last rfl rfl rfl hm))

theorem obeys_checkSize (v : Value) (pos : Pos) :
    Obeys env (checkSize env v pos) (checkSize (env.isolated z) v pos) := by
  unfold checkSize
  rcases v.sizes with ⟨items, entries, text⟩
  split
  case h_4 => exact obeys_pure _
  all_goals exact fun m hm => .unless rfl rfl rfl hm (.unless rfl rfl rfl hm (.last rfl rfl rfl hm))

theorem obeys_sized (v : Value) (pos : Pos) : Obeys env (sized env v pos) (sized (env.isolated z) v pos) :=
  (obeys_checkSize v pos).bind fun _ => obeys_pure _

theorem obeys_declare (name : String) (constant : Bool) (v : Value) :
    Obeys env (declare name constant v) (declare name constant v) :=
  obeys_modify fun _ => rfl

theorem Obeys.scoped {x y : Exec α} (hx : Obeys env x y) : Obeys env (scoped_ x) (scoped_ y) := by
  refine .get_bind fun m => ?_
  refine Obeys.bind (hx.tidy (fun _ _ => rfl) (fun _ => rfl) fun _ => rfl) fun v => ?_
  exact Obeys.bind (obeys_modify fun _ => rfl) fun _ => obeys_pure v

theorem obeys_newCell (v : Value) : Obeys env (newCell v) (newCell v) :=
  .get_bind fun _ => Obeys.bind (obeys_modify fun _ => rfl) fun _ => obeys_pure _

theorem obeys_share (name : String) (pos : Pos) : Obeys env (share env name pos) (share (env.isolated z) name pos) := by
  refine .get_bind fun m => ?_
  split
  · exact obeys_fault _ _
  · refine (obeys_noteRead pos).bind fun _ => ?_
    dsimp only
    split
    · exact obeys_pure _
    · refine (obeys_newCell _).bind fun _ => ?_
      exact Obeys.bind (obeys_modify fun _ => rfl) fun _ => obeys_pure _

theorem obeys_readVariable (name : String) (pos : Pos) :
    Obeys env (readVariable env name pos) (readVariable (env.isolated z) name pos) := by
  refine (obeys_noteRead pos).bind fun _ => .get_bind fun m => ?_
  split
  · exact obeys_pure _
  · exact obeys_fault _ _

end Exec

/-! ### Computations in place -/

namespace Place

variable {env : Env} {z : SizeLimits} {α β : Type}

/-- A computation in place obeys, whatever the place holds, and so does the one beside it. -/
def Obeys (env : Env) (x y : Place α) : Prop :=
  ∀ v m, m.raised = none → Accord Prod.fst env m (x v m) (y v m)

theorem Obeys.own {x : Place α} (ho : ∀ v m, (x v m).2.outside = m.outside)
    (hi : ∀ v m, imposed (haltOf (x v m).1.1) = false) : Obeys env x x :=
  fun v m hm => .own hm (ho v m) (hi v m)

/-- What hinders a computation in its first part hinders it as a whole. -/
theorem unhindered_of_bind {v : Value} {m : Machine} {x : Place α} {f : α → Place β}
    (h : unhindered ((x >>= f) v m).1.1 = true) : unhindered (x v m).1.1 = true := by
  rcases hx : x v m with ⟨⟨s | a, v₁⟩, m₁⟩
  · rwa [bind_apply, hx] at h
  · rfl

theorem Obeys.bind {x y : Place α} {f g : α → Place β} (hx : Obeys env x y) (hf : ∀ a, Obeys env (f a) (g a)) :
    Obeys env (x >>= f) (y >>= g) := by
  intro v m hm
  have hxm := hx v m hm
  rcases hr : x v m with ⟨⟨s | a, v₁⟩, m₁⟩
  · have hrun : (x >>= f) v m = ((.error s, v₁), m₁) := by rw [bind_apply, hr]
    refine hxm.finish ?_ ?_ unhindered_of_bind unhindered_of_bind fun heq => ?_
    · rw [hrun, hr]
    · rw [hrun, hr]
      rfl
    · rw [hrun, bind_apply, heq, hr]
  · have hrun : (x >>= f) v m = f a v₁ m₁ := by rw [bind_apply, hr]
    refine hxm.goOn ?_ unhindered_of_bind unhindered_of_bind (r := g a v₁ m₁) (fun heq => ?_) ?_
    · rw [hr]
      rfl
    · rw [bind_apply, heq, hr]
    · rw [hrun, hr]
      exact hf a v₁ m₁

theorem Obeys.get_bind {f g : Value → Place β} (h : ∀ v, Obeys env (f v) (g v)) :
    Obeys env (get >>= f) (get >>= g) :=
  .bind (.own (fun _ _ => rfl) fun _ _ => rfl) h

/-- A computation that goes on with what the place holds. -/
theorem accord_get {v : Value} {m : Machine} {f g : Value → Place β} (h : Accord Prod.fst env m (f v v m) (g v v m)) :
    Accord Prod.fst env m ((get >>= f : Place β) v m) ((get >>= g : Place β) v m) :=
  h

/-- A computation that goes on with the machine on which it stands. -/
theorem Obeys.machine_bind {f g : Machine → Place β}
    (h : ∀ v m, m.raised = none → Accord Prod.fst env m (f m v m) (g m v m)) :
    Obeys env ((liftM (get : StateM Machine Machine) : Place Machine) >>= f)
      ((liftM (get : StateM Machine Machine) : Place Machine) >>= g) :=
  h

theorem obeys_pure (a : α) : Obeys env (pure a : Place α) (pure a) := .own (fun _ _ => rfl) fun _ _ => rfl

theorem obeys_throw (s : Stop) (hi : imposed s.halt? = false) : Obeys env (throw s : Place α) (throw s) :=
  .own (fun _ _ => rfl) fun _ _ => hi

theorem obeys_set (v : Value) : Obeys env (set v : Place PUnit) (set v) := .own (fun _ _ => rfl) fun _ _ => rfl

theorem obeys_fault (f : Fault) (pos : Pos) : Obeys env (fault f pos : Place α) (fault f pos) := obeys_throw _ rfl

/-- A guard before the rest of a computation. -/
theorem Obeys.guard {c : Prop} [Decidable c] {x y : Place PUnit} {f g : PUnit → Place β} (hx : Obeys env x y)
    (hf : Obeys env (f ⟨⟩) (g ⟨⟩)) : Obeys env (if c then x >>= f else f ⟨⟩) (if c then y >>= g else g ⟨⟩) := by
  split
  · exact hx.bind fun _ => hf
  · exact hf

theorem Obeys.lift {x y : Exec α} (hx : x.Obeys env y) : Obeys env (Place.lift x) (Place.lift y) := by
  intro v m hm
  exact Accord.finish (hx m hm) rfl rfl id id fun heq => by simp only [lift_apply, heq]

/-- What hinders a computation hinders it also under a handler that keeps what comes from outside. -/
theorem unhindered_of_catch {v : Value} {m : Machine} {x : Place α} {h : Stop → Place α}
    (hk : ∀ s, s.isForeign = true → h s = throw s) (hfree : unhindered ((tryCatch x h) v m).1.1 = true) :
    unhindered (x v m).1.1 = true := by
  rcases hx : x v m with ⟨⟨s | a, v₁⟩, m₁⟩
  · rw [tryCatch_apply, hx] at hfree
    cases hs : s.isLimit with
    | false => simp [unhindered, hs]
    | true => simp [hk s (Stop.isForeign_of_isLimit hs), unhindered, hs] at hfree
  · rfl

theorem Obeys.catching {x y : Place α} {h h' : Stop → Place α} (hx : Obeys env x y)
    (hk : ∀ s, s.isForeign = true → h s = throw s) (hk' : ∀ s, s.isForeign = true → h' s = throw s)
    (hh : ∀ s, s.isForeign = false → Obeys env (h s) (h' s)) : Obeys env (tryCatch x h) (tryCatch y h') := by
  intro v m hm
  have hxm := hx v m hm
  rcases hr : x v m with ⟨⟨s | a, v₁⟩, m₁⟩
  · have hrun : (tryCatch x h) v m = h s v₁ m₁ := by rw [tryCatch_apply, hr]
    have hrun' (heq : y v m = x v m) : (tryCatch y h') v m = h' s v₁ m₁ := by rw [tryCatch_apply, heq, hr]
    cases hs : s.isForeign with
    | true =>
      refine hxm.finish ?_ ?_ (unhindered_of_catch hk) (unhindered_of_catch hk') fun heq => ?_
      · rw [hrun, hk s hs, hr]
        rfl
      · rw [hrun, hk s hs, hr]
        rfl
      · rw [hrun' heq, hrun, hk s hs, hk' s hs]
    | false =>
      refine hxm.goOn ?_ (unhindered_of_catch hk) (unhindered_of_catch hk') hrun' ?_
      · rw [hr]
        exact Stop.halt?_eq_none hs
      · rw [hrun, hr]
        exact hh s hs v₁ m₁
  · have hrun : (tryCatch x h) v m = ((.ok a, v₁), m₁) := by rw [tryCatch_apply, hr]
    refine hxm.finish ?_ ?_ (unhindered_of_catch hk) (unhindered_of_catch hk') fun heq => ?_
    · rw [hrun, hr]
    · rw [hrun, hr]
    · rw [hrun, tryCatch_apply, heq, hr]

/-- A handler that only looks at the machine and fails again. -/
theorem Obeys.tidy {x y : Place α} {t : Place PUnit} (hx : Obeys env x y)
    (ht : ∀ v m, ∃ v', t v m = ((.ok ⟨⟩, v'), m)) :
    Obeys env (tryCatch x fun s => do t; throw s) (tryCatch y fun s => do t; throw s) := by
  intro v m hm
  rw [tryCatch_apply, tryCatch_apply]
  have run (s : Stop) (v₁ : Value) (m₁ : Machine) :
      ∃ v', (do t; throw s : Place α) v₁ m₁ = ((.error s, v'), m₁) := by
    obtain ⟨v', hv'⟩ := ht v₁ m₁
    exact ⟨v', by rw [bind_apply, hv']; rfl⟩
  refine (hx v m hm).map (fun r => match r with
    | ((.ok a, v₁), m₁) => ((.ok a, v₁), m₁)
    | ((.error s, v₁), m₁) => (do t; throw s : Place α) v₁ m₁) ?_ ?_ ?_
  all_goals
    rintro ⟨⟨s | a, v₁⟩, m₁⟩
    · obtain ⟨v', hv'⟩ := run s v₁ m₁
      simp only [hv']
    · rfl

theorem Obeys.inside {x y : Place α} (hx : Obeys env x y) (part : Value) (put : Value → Value → Value) :
    Obeys env (Place.inside part put x) (Place.inside part put y) := by
  intro v m hm
  refine (hx part m hm).map (fun r => ((r.1.1, put v r.1.2), r.2)) ?_ ?_ ?_ <;> exact fun _ => rfl

theorem Obeys.onValue {x y : Place α} (hx : Obeys env x y) (v : Value) :
    (Place.onValue v x).Obeys env (Place.onValue v y) := by
  intro m hm
  show Accord id env m _ _
  refine (hx v m hm).map (fun r => (r.1.1.map (·, r.1.2), r.2)) (fun _ => rfl) ?_ ?_
  all_goals
    rintro ⟨⟨s | a, v₁⟩, m₁⟩
    · rfl
    · rfl

theorem Obeys.onCell {x y : Place α} (hx : Obeys env x y) (cell : Nat) :
    (Place.onCell cell x).Obeys env (Place.onCell cell y) := by
  intro m hm
  show Accord id env m _ _
  refine (hx (m.cells[cell]?.getD .unit) m hm).map
    (fun r => (r.1.1, { r.2 with cells := r.2.cells.setIfInBounds cell r.1.2 })) ?_ ?_ ?_ <;> exact fun _ => rfl

theorem Obeys.onVariable {x y : Bool → Place α} (hx : ∀ constant, Obeys env (x constant) (y constant)) (name : String)
    (pos : Pos) : (Place.onVariable env name pos x).Obeys env (Place.onVariable (env.isolated z) name pos y) := by
  refine (Exec.obeys_noteRead pos).bind fun _ => .get_bind fun m => ?_
  split
  · exact Exec.obeys_fault _ _
  · dsimp only
    split
    · exact (hx _).onCell _
    · next i _ _ _ =>
      intro m₁ hm₁
      show Accord id env m₁ _ _
      refine (hx _ _ m₁ hm₁).map
        (fun r => (r.1.1, { r.2 with scope := r.2.scope.set i { m.scope[i]! with value := r.1.2 } })) ?_ ?_ ?_ <;>
        exact fun _ => rfl

end Place

end ScriptAgent
