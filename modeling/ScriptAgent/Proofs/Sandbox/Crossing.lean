import ScriptAgent.Proofs.Sandbox.Deeds

/-!
# What crosses the border

Values cross the border between the host and a script when a tool is called and when it returns, when a
value is given out, logged, written or carried by a signal, and when a value that records and objects hold
is read.  The isolated backend passes each of them as text.  Which values cross is told by the outside and
by the deeds that change it.
-/

namespace ScriptAgent

open Script (Value)

/-- A value that is the same on the other side of the isolated backend's border. -/
def Json.Passes (v : Json) : Prop :=
  Backend.isolated.pass v = v

namespace Backend

variable (b : Backend) {v : Json}

theorem pass_isolated (h : (b.pass v).Passes) : isolated.pass v = b.pass v := by
  cases b with
  | inline => exact h
  | isolated => rfl

theorem toScript_isolated (h : v.Passes) : isolated.toScript v = b.toScript v := by
  cases b with
  | inline => exact congrArg Binding.ofJson h
  | isolated => rfl

end Backend

theorem Machine.toJson_isolated (m : Machine) (b : Backend) {v : Value} (h : (m.toJson b v).Passes) :
    m.toJson .isolated v = m.toJson b v :=
  b.pass_isolated h

/-- What does not change during the same run by the isolated backend, which has limits of its own. -/
def Env.isolated (env : Env) (sizes : SizeLimits) : Env :=
  { env with backend := .isolated, sizes }

@[simp] theorem Env.isolated_backend (env : Env) (sizes : SizeLimits) : (env.isolated sizes).backend = .isolated := rfl

/-- A value that a script can read from the records and objects outside. -/
inductive Outside.Holds (o : Outside) : Json → Prop
  | field {id : Nat} {r : Record} {key : String} {v : Json} (at_ : o.records[id]? = some r)
      (held : r.get? key = some v) : Holds o v
  | record {id : Nat} {r : Record} (at_ : o.records[id]? = some r) : Holds o r.toJson
  | property {id : Nat} {d : Draft} {key : String} {v : Json} (at_ : o.drafts[id]? = some d)
      (held : d.get key = .ok v) : Holds o v
  | object {id : Nat} {d : Draft} (at_ : o.drafts[id]? = some d) : Holds o (.obj d.values)

/-- A value that is refused where a script would write it. -/
inductive Outside.Refuses (o : Outside) (v : Json) (e : ObjectError) : Prop
  | field {id : Nat} {r : Record} {key : String} (at_ : o.records[id]? = some r) (refused : r.set key v = .error e) :
    Refuses o v e
  | property {id : Nat} {d : Draft} {key : String} (at_ : o.drafts[id]? = some d) (refused : d.set key v = .error e) :
    Refuses o v e

/-- The values outside that go into the text of a value as it crosses the border. -/
def Machine.shown (m : Machine) : Value → List Json
  | .object id => (m.drafts[id]?.map fun d => Json.obj d.values).toList
  | _ => []

theorem Machine.holds_of_shown {m : Machine} {v : Value} {c : Json} (h : c ∈ m.shown v) : m.outside.Holds c := by
  cases v with
  | object id =>
    obtain ⟨d, hd, rfl⟩ := Option.map_eq_some_iff.mp (Option.mem_toList.mp h)
    exact .object hd
  | _ => cases h

theorem Machine.text_isolated (m : Machine) (b : Backend) {v : Value} (h : ∀ c ∈ m.shown v, c.Passes) :
    m.text .isolated v = m.text b v := by
  cases v with
  | object id =>
    suffices hpass : (m.toJson b (.object id)).Passes from congrArg Json.compact (m.toJson_isolated b hpass)
    have hread : m.toJson b (.object id) = b.pass (m.hostedJson (.object id)) := rfl
    have hshown : ∀ d, m.drafts[id]? = some d → (Json.obj d.values).Passes := fun d hd => h _ (by simp [shown, hd])
    rw [hread, hostedJson]
    cases hd : m.drafts[id]? with
    | none => cases b <;> rfl
    | some d =>
      have hobject : (Json.obj d.values).Passes := hshown d hd
      cases b with
      | inline => exact hobject
      | isolated => exact (congrArg Backend.isolated.pass hobject)
  | _ => rfl

/-- The text as which a value is logged. -/
def Json.logged : Json → String
  | .str s => s
  | v => v.compact

/-- The value that a signal of the script's own carries. -/
def Signal.carried : Signal → List Json
  | .think _ (some context) => [context]
  | .execute _ input => [input]
  | _ => []

/-- What a script gets from a call of a tool that returned. -/
def Invocation.given : Invocation → List Json
  | .ended (.value v) => [v]
  | _ => []

theorem Invocation.reply_isolated (b : Backend) {i : Invocation} (h : ∀ v ∈ i.given, v.Passes) :
    i.reply .isolated = i.reply b := by
  rcases i with (v | _ | _) | _ | _
  · exact congrArg Except.ok (b.toScript_isolated (h v (by simp [given])))
  all_goals rfl

/-- The values that a deed hands over. -/
def Deed.handed (env : Env) (o : Outside) : Deed → List Json
  | call t r deadline => r.input :: (Bridge.invoke o.host env.slowTool (some deadline) t r).1.given
  | giveOut v | record _ _ v | write _ _ v => [v]
  | raise s => s.carried
  | _ => []

/-- The values that cross the border on the way from one outside to another. -/
inductive Crossing (env : Env) : Outside → List Json → Outside → Prop
  | none (o : Outside) : Crossing env o [] o
  /-- A value outside is read. -/
  | read {o o₁ : Outside} {cs : List Json} {v : Json} (before : Crossing env o cs o₁) (held : o₁.Holds v) :
    Crossing env o (cs ++ [v]) o₁
  | deed {o o₁ o₂ : Outside} {cs : List Json} {d : Deed} (before : Crossing env o cs o₁) (made : d.Makes env o₁ o₂) :
    Crossing env o (cs ++ d.handed env o₁) o₂
  /-- A message is logged, with values. -/
  | log {o o₁ : Outside} {cs : List Json} (before : Crossing env o cs o₁) (message : Json) (args : List Json) :
    Crossing env o (cs ++ message :: args)
      { o₁ with host := o₁.host.trace (.log o₁.host.millis message.logged args) }
  | refuse {o o₁ : Outside} {cs : List Json} {v : Json} {e : ObjectError} (before : Crossing env o cs o₁)
      (refused : o₁.Refuses v e) :
    Crossing env o (cs ++ [v]) { o₁ with refusedWrite := some e.message }

namespace Crossing

variable {env : Env} {o o₁ o₂ : Outside} {cs cs' : List Json}

theorem trans (h : Crossing env o cs o₁) (h' : Crossing env o₁ cs' o₂) : Crossing env o (cs ++ cs') o₂ := by
  induction h' with
  | none => simpa using h
  | read _ held ih => exact List.append_assoc _ _ _ ▸ ih.read held
  | deed _ made ih => exact List.append_assoc _ _ _ ▸ ih.deed made
  | log _ message args ih => exact List.append_assoc _ _ _ ▸ ih.log message args
  | refuse _ refused ih => exact List.append_assoc _ _ _ ▸ ih.refuse refused

/-- Values outside are read one after the other. -/
theorem reads {vs : List Json} (held : ∀ v ∈ vs, o.Holds v) : Crossing env o vs o := by
  induction vs with
  | nil => exact .none o
  | cons v vs ih =>
    have first : Crossing env o [v] o := (none o).read (held v (by simp))
    exact first.trans (ih fun w hw => held w (by simp [hw]))

end Crossing

/-- From one machine to another only values crossed that, if all of them pass, make something hold. -/
def Across (env : Env) (m m₁ : Machine) (P : Prop) : Prop :=
  ∃ cs, Crossing env m.outside cs m₁.outside ∧ ((∀ c ∈ cs, c.Passes) → P)

namespace Across

variable {env : Env} {m m₁ m₂ : Machine} {P Q R : Prop}

theorem own (ho : m₁.outside = m.outside) (h : P) : Across env m m₁ P :=
  ⟨[], ho ▸ .none _, fun _ => h⟩

theorem trans (h : Across env m m₁ P) (h' : Across env m₁ m₂ Q) (hr : P → Q → R) : Across env m m₂ R := by
  obtain ⟨cs, hcs, hp⟩ := h
  obtain ⟨cs', hcs', hq⟩ := h'
  refine ⟨cs ++ cs', hcs.trans hcs', fun hall => hr (hp fun c hc => ?_) (hq fun c hc => ?_)⟩
  · exact hall c (List.mem_append_left _ hc)
  · exact hall c (List.mem_append_right _ hc)

/-- What the script does to its own part afterwards lets nothing cross. -/
theorem then_own (h : Across env m m₁ P) (ho : m₂.outside = m₁.outside) (hr : P → Q) : Across env m m₂ Q :=
  h.trans (.own ho trivial) fun hp _ => hr hp

theorem reads {vs : List Json} (held : ∀ v ∈ vs, m.outside.Holds v) (h : (∀ v ∈ vs, v.Passes) → P) :
    Across env m m P :=
  ⟨vs, .reads held, h⟩

end Across

end ScriptAgent
