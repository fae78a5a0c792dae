import Mathlib.Data.List.Nodup
import ScriptAgent.Proofs.Loop.Exits

/-!
# One exit for an action

The names of exits are checked in full lower case and matched up to ASCII case, and what is the same in the second
way is so in the first.  Two exits that are accepted therefore match no action both, and which one is taken depends on
neither the order of the exits nor that of their names.
-/

namespace ScriptAgent

/-! ### Exits that match apart -/

namespace Exit

variable {x y : Exit} {exits exits' : List Exit} {action : String} {f : Exit → Exit}

/-- No action matches both of two exits. -/
def Apart (x y : Exit) : Prop :=
  ∀ action, x.matchesAction action = true → y.matchesAction action = true → False

theorem Apart.symm (h : Apart x y) : Apart y x :=
  fun action hy hx => h action hx hy

theorem apart_of_disjoint (h : (x.names.map Text.lower).Disjoint (y.names.map Text.lower)) : Apart x y := by
  intro action hx hy
  obtain ⟨name, hname, hlower⟩ := exists_lower_of_matchesAction hx
  obtain ⟨name', hname', hlower'⟩ := exists_lower_of_matchesAction hy
  have hown : Text.lower action ∈ x.names.map Text.lower := List.mem_map.mpr ⟨name, hname, hlower⟩
  have hother : Text.lower action ∈ y.names.map Text.lower := List.mem_map.mpr ⟨name', hname', hlower'⟩
  exact h hown hother

theorem pairwise_apart_of_nodup (h : ((exits.flatMap names).map Text.lower).Nodup) : exits.Pairwise Apart := by
  rw [List.map_flatMap, List.nodup_flatMap] at h
  exact h.2.imp apart_of_disjoint

/-- At most one of some exits matches an action. -/
theorem eq_of_pairwise_apart (h : exits.Pairwise Apart) {i j : Nat} (hi : i < exits.length) (hj : j < exits.length)
    (hx : exits[i].matchesAction action = true) (hy : exits[j].matchesAction action = true) : i = j := by
  rw [List.pairwise_iff_getElem] at h
  rcases Nat.lt_trichotomy i j with hlt | heq | hgt
  · exact (h i j hi hj hlt action hx hy).elim
  · exact heq
  · exact (h j i hj hi hgt action hy hx).elim

/-- Where at most one exit matches, it is found in any order. -/
theorem find?_perm (hperm : exits.Perm exits') (h : exits.Pairwise Apart) :
    exits.find? (·.matchesAction action) = exits'.find? (·.matchesAction action) := by
  induction hperm with
  | nil => rfl
  | cons x _ ih =>
    rw [List.find?_cons, List.find?_cons, ih (List.pairwise_cons.mp h).2]
  | swap x y rest =>
    have hapart := (List.pairwise_cons.mp h).1 x (.head _) action
    simp only [List.find?_cons]
    cases hx : x.matchesAction action with
    | false => rfl
    | true =>
      cases hy : y.matchesAction action with
      | false => rfl
      | true => exact (hapart hy hx).elim
  | trans hfirst _ ih ih' => exact (ih h).trans (ih' (h.perm hfirst Apart.symm))

/-- Exits in another order, each of them as `f` has it: with its names in another order. -/
structure Rearranged (f : Exit → Exit) (exits exits' : List Exit) : Prop where
  order : exits'.Perm (exits.map f)
  names : ∀ x ∈ exits, (f x).names.Perm x.names
  schema : ∀ x ∈ exits, (f x).schema = x.schema

theorem Rearranged.matchesAction (h : Rearranged f exits exits') (hx : x ∈ exits) (action : String) :
    (f x).matchesAction action = x.matchesAction action :=
  (h.names x hx).any_eq

theorem Rearranged.find? (h : Rearranged f exits exits') (hapart : exits.Pairwise Apart) (action : String) :
    exits'.find? (·.matchesAction action) = (exits.find? (·.matchesAction action)).map f := by
  have hmapped : (exits.map f).Pairwise Apart := by
    rw [List.pairwise_map]
    refine hapart.imp_of_mem fun hx hy hxy action => ?_
    rw [h.matchesAction hx, h.matchesAction hy]
    exact hxy action
  rw [← find?_perm h.order.symm hmapped, List.find?_map]
  refine congrArg (Option.map f) (List.find?_congr fun x hx => ?_)
  exact h.matchesAction hx action

/-! ### The exit that is taken -/

/-- The exit that an action takes with a value, by its name, and the value it is left with.  Where there are no exits,
any action is one. -/
def taken (exits : List Exit) (action : String) (value : Json) : Option (String × Json) :=
  if exits.isEmpty then some (action, value)
  else (exits.find? (·.matchesAction action)).bind fun exit =>
    (exit.parseValue value).toOption.map fun parsed => (exit.name, parsed)

/-- The exit that is taken for what a script asked for. -/
def takenFor (exits : List Exit) : Returned → Option (String × Json)
  | .exit action value => taken exits action value
  | _ => none

/-- The exit that a script takes by its outcome. -/
def takenBy (exits : List Exit) : Outcome → Option (String × Json)
  | .completed value => takenFor exits (Returned.ofValue value)
  | _ => none

/-- Two choices of one exit, which is `f x` in the second if it is `x` in the first. -/
def SameChoice (f : Exit → Exit) (exits : List Exit) (choice choice' : Option (String × Json)) : Prop :=
  (choice' = choice ∧ (exits = [] ∨ choice = none)) ∨
    ∃ x ∈ exits, ∃ value, choice = some (x.name, value) ∧ choice' = some ((f x).name, value)

theorem Rearranged.isEmpty (h : Rearranged f exits exits') : exits'.isEmpty = exits.isEmpty := by
  rw [Bool.eq_iff_iff, List.isEmpty_iff, List.isEmpty_iff, ← List.length_eq_zero_iff, ← List.length_eq_zero_iff,
    h.order.length_eq, List.length_map]

theorem Rearranged.parseValue (h : Rearranged f exits exits') {x : Exit} (hx : x ∈ exits) (value : Json) :
    (f x).parseValue value = x.parseValue value := by
  unfold Exit.parseValue
  rw [h.schema x hx]

theorem Rearranged.taken (h : Rearranged f exits exits') (hapart : exits.Pairwise Apart) (action : String)
    (value : Json) : SameChoice f exits (taken exits action value) (taken exits' action value) := by
  unfold Exit.taken
  rw [h.isEmpty, h.find? hapart]
  split
  · next hnone => exact .inl ⟨rfl, .inl (List.isEmpty_iff.mp hnone)⟩
  · cases hfound : exits.find? (·.matchesAction action) with
    | none => exact .inl ⟨rfl, .inr rfl⟩
    | some x =>
      have hx := List.mem_of_find?_eq_some hfound
      rw [Option.map_some, Option.bind_some, Option.bind_some, h.parseValue hx]
      cases x.parseValue value with
      | ok parsed => exact .inr ⟨x, hx, parsed, rfl, rfl⟩
      | error e => exact .inl ⟨rfl, .inr rfl⟩

/-- Rearranged exits are taken alike. -/
theorem Rearranged.takenBy (h : Rearranged f exits exits') (hapart : exits.Pairwise Apart) (outcome : Outcome) :
    SameChoice f exits (takenBy exits outcome) (takenBy exits' outcome) := by
  cases outcome with
  | completed value =>
    unfold Exit.takenBy
    dsimp only
    cases Returned.ofValue value with
    | exit action value => exact h.taken hapart action value
    | _ => exact .inl ⟨rfl, .inr rfl⟩
  | _ => exact .inl ⟨rfl, .inr rfl⟩

end Exit

/-- An iteration with the exit and the value of a choice. -/
structure Iteration.Took (i : Iteration) (choice : Option (String × Json)) : Prop where
  exit : i.exit = choice.map (·.1)
  returnValue : i.returnValue = choice.map (·.2)

namespace Turn

variable {s : TurnState}

theorem took_takeExit (code action : String) (value : Json) (fresh : s.iteration.Open) :
    (takeExit code action value s).2.iteration.Took (Exit.taken s.context.exits action value) := by
  unfold takeExit Exit.taken
  rw [get_bind_apply]
  dsimp only
  by_cases hnone : s.context.exits.isEmpty = true
  · rw [if_pos hnone, if_pos hnone]
    exact ⟨rfl, rfl⟩
  · rw [if_neg hnone, if_neg hnone]
    cases s.context.exits.find? (·.matchesAction action) with
    | none => exact ⟨fresh.exit, fresh.returnValue⟩
    | some exit =>
      rw [Option.bind_some]
      dsimp only
      cases exit.parseValue value with
      | ok parsed => exact ⟨rfl, rfl⟩
      | error e => exact ⟨fresh.exit, fresh.returnValue⟩

theorem took_takeSignal (code : String) (assigned : Dict Json) (signal : Signal) (fresh : s.iteration.Open) :
    (takeSignal code assigned signal s).2.iteration.Took none := by
  rcases takeSignal_cases code assigned signal s with ⟨htaken, -⟩ | htaken
  · rw [htaken]
    exact ⟨fresh.exit, fresh.returnValue⟩
  · rw [htaken]
    exact ⟨fresh.exit, fresh.returnValue⟩

theorem took_takeFailure (code : String) (error : ExecutionError) (fresh : s.iteration.Open) :
    (takeFailure code error s).2.iteration.Took none := by
  unfold takeFailure
  cases error <;> exact ⟨fresh.exit, fresh.returnValue⟩

/-- A script takes the exit that its outcome asks for, if there is one to take. -/
theorem took_takeExecution (compiled : Compiled) (e : Execution) (fresh : s.iteration.Open) :
    (takeExecution compiled e s).2.iteration.Took (Exit.takenBy s.context.exits e.outcome) := by
  have fresh' : (afterExecution e s).iteration.Open := ⟨fresh.signal, fresh.error, fresh.exit, fresh.returnValue⟩
  cases houtcome : e.outcome with
  | failed error =>
    rw [takeExecution_failed houtcome]
    exact took_takeFailure _ _ fresh'
  | suspended signal =>
    rw [takeExecution_suspended houtcome]
    exact took_takeSignal _ _ _ fresh'
  | completed value =>
    rw [takeExecution_completed houtcome]
    unfold takeValue Exit.takenBy
    dsimp only
    cases Returned.ofValue value with
    | signal raised => exact took_takeSignal (s := (traceSignal raised (afterExecution e s)).2) _ _ _ fresh'
    | exit action value => exact took_takeExit _ _ _ fresh'
    | invalid action message => exact ⟨fresh'.exit, fresh'.returnValue⟩
    | nothing => exact took_takeSignal _ _ _ fresh'

end Turn

namespace Context

theorem exits_apart {c : Context} (valid : c.validate = .ok ()) : c.exits.Pairwise Exit.Apart :=
  Exit.pairwise_apart_of_nodup (checkExits_ok (checkExits_of_validate valid)).2

end Context

namespace Agent

/-- A turn takes the exit that its script asks for by its outcome. -/
theorem Executes.took {r : Agent} {c : Context} {host : Host} {requests : List GenerateRequest} {compiled : Compiled}
    {e : Execution} (h : Executes r c host requests compiled e) :
    (r.turn c host requests).2.iteration.Took (Exit.takenBy c.exits e.outcome) := by
  obtain ⟨s, fresh, hexits, -, hturn⟩ := h.turn
  obtain ⟨hexit, hvalue⟩ := Turn.took_takeExecution compiled e fresh
  rw [hturn, ← hexits]
  exact ⟨hexit, hvalue⟩

/-- Exits are told apart.  If a context is accepted, no action matches two of its exits.  So if the exits are put in
another order, and each has its names in another order, then scripts with the same outcome take the same exit with the
same value, in the context itself and whatever runs have made of it; the exit has another name only if its first name is
another one. -/
theorem exit_choice_is_unambiguous {c : Context} (valid : c.validate = .ok ()) :
    (∀ action i j, (hi : i < c.exits.length) → (hj : j < c.exits.length) →
      c.exits[i].matchesAction action = true → c.exits[j].matchesAction action = true → i = j) ∧
    ∀ (r r' : Agent) (c₁ c₂ : Context) (host host' : Host) (requests requests' : List GenerateRequest)
        (compiled compiled' : Compiled) (e e' : Execution) (f : Exit → Exit),
      Becomes c c₁ → Exit.Rearranged f c.exits c₂.exits → Executes r c₁ host requests compiled e →
      Executes r' c₂ host' requests' compiled' e' → e'.outcome = e.outcome →
        let i := (r.turn c₁ host requests).2.iteration
        let i' := (r'.turn c₂ host' requests').2.iteration
        i'.returnValue = i.returnValue ∧
          ((i'.exit = i.exit ∧ (c.exits = [] ∨ i.exit = none)) ∨
            ∃ x ∈ c.exits, i.exit = some x.name ∧ i'.exit = some (f x).name) ∧
          ((∀ x ∈ c.exits, (f x).name = x.name) → i'.exit = i.exit) := by
  have hapart := Context.exits_apart valid
  refine ⟨fun action i j hi hj => Exit.eq_of_pairwise_apart hapart hi hj, ?_⟩
  intro r r' c₁ c₂ host host' requests requests' compiled compiled' e e' f became rearranged executes executes' same
  have hexits : c₁.exits = c.exits := (invariant_exits c.exits).becomes rfl became
  obtain ⟨hexit, hvalue⟩ := executes.took
  obtain ⟨hexit', hvalue'⟩ := executes'.took
  rw [hexits] at hexit hvalue
  rw [same] at hexit' hvalue'
  dsimp only
  rw [hexit, hvalue, hexit', hvalue']
  rcases rearranged.takenBy hapart e.outcome with ⟨hsame, hnone⟩ | ⟨x, hx, value, htaken, htaken'⟩
  · rw [hsame]
    exact ⟨rfl, .inl ⟨rfl, hnone.imp_right fun h => by rw [h]; rfl⟩, fun _ => rfl⟩
  · rw [htaken, htaken']
    exact ⟨rfl, .inr ⟨x, hx, rfl, rfl⟩, fun hnames => congrArg some (hnames x hx)⟩

/-- A context with two exits, one of which has two names. -/
def twoExits : Context where
  id := "ctx"
  exits := [{ name := "done", aliases := ["finish"] }, { name := "stop" }]

/-- The two names of an exit in the other order. -/
def renamed (x : Exit) : Exit :=
  if x.name = "done" then { x with name := "finish", aliases := ["done"] } else x

/-- The same exits in the other order. -/
def twoExitsAround : Context where
  id := "ctx"
  exits := [{ name := "stop" }, { name := "finish", aliases := ["done"] }]

theorem exists_completes_finish :
    (∃ r, Completes r (sevenScript "Finish") twoExits (sevenValue "Finish")) ∧
      ∃ r, Completes r (sevenScript "Finish") twoExitsAround (sevenValue "Finish") :=
  ⟨exists_completes (by decide +kernel) (by decide +kernel) (by decide +kernel),
    exists_completes (by decide +kernel) (by decide +kernel) (by decide +kernel)⟩

theorem finish_is_done : ∃ r r', twoExits.validate = .ok () ∧
    Exit.Rearranged renamed twoExits.exits twoExitsAround.exits ∧
    Completes r (sevenScript "Finish") twoExits (sevenValue "Finish") ∧
    Completes r' (sevenScript "Finish") twoExitsAround (sevenValue "Finish") ∧
    (r.turn twoExits {} []).2.iteration.exit = some "done" ∧
    (r'.turn twoExitsAround {} []).2.iteration.exit = some "finish" := by
  obtain ⟨⟨r, completes⟩, r', completes'⟩ := exists_completes_finish
  have valid : twoExits.validate = .ok () := by decide +kernel
  have members {x : Exit} (hx : x ∈ twoExits.exits) :
      x = { name := "done", aliases := ["finish"] } ∨ x = { name := "stop" } := by
    simpa only [twoExits, List.mem_cons, List.not_mem_nil, or_false] using hx
  have rearranged : Exit.Rearranged renamed twoExits.exits twoExitsAround.exits := by
    refine ⟨List.Perm.swap .., fun x hx => ?_, fun x hx => ?_⟩
    · rcases members hx with rfl | rfl
      · exact List.Perm.swap ..
      · exact .refl _
    · rcases members hx with rfl | rfl <;> rfl
  have hdone : (r.turn twoExits {} []).2.iteration.exit = some "done" := by
    rw [completes.executes.took.exit, completes.completed]
    rfl
  obtain ⟨-, hexit, -⟩ := (exit_choice_is_unambiguous valid).2 r r' twoExits twoExitsAround {} {} [] [] _ _ _ _
    renamed .start rearranged completes.executes completes'.executes
    (completes'.completed.trans completes.completed.symm)
  refine ⟨r, r', valid, rearranged, completes, completes', hdone, ?_⟩
  rcases hexit with ⟨-, hnone | hnone⟩ | ⟨x, hx, hname, hname'⟩
  · cases hnone
  · exact nomatch hdone.symm.trans hnone
  · have hx' : "done" = x.name := Option.some.inj (hdone.symm.trans hname)
    rcases members hx with rfl | rfl
    · exact hname'
    · exact absurd hx' (by decide)

end Agent

end ScriptAgent
