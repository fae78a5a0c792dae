import ScriptAgent.Proofs.Instrument.ApplyTwins
import ScriptAgent.Sandbox.Chain

/-!
# Following chains agrees

The steps of two woven chains differ in places only, once their arguments are evaluated; so do the
assignments at their ends.  Places matter only for faults.
-/

namespace ScriptAgent

open Script (Value Fault Pos)

/-- Steps that differ in places only. -/
inductive Move.Alike : Move → Move → Prop
  | property (name : String) (p p' q q' : Pos) (safe : Bool) :
    Move.Alike (.property name p q safe) (.property name p' q' safe)
  | method (name : String) (args : List Value) (a a' p p' q q' : Pos) (safe : Bool) :
    Move.Alike (.method name args a p q safe) (.method name args a' p' q' safe)
  | index (key : Value) (p p' q q' : Pos) (safe : Bool) :
    Move.Alike (.index key p q safe) (.index key p' q' safe)

/-- Assignments that differ in places only. -/
structure Write.Alike (w w' : Write) : Prop where
  op : w'.op = w.op
  value : w'.value = w.value
  root : w'.root = w.root

section Parts

variable {mute : Bool} {env env' : Env} {run run' : Runner}

theorem Move.agrees_ofLink (hrun : run.Twin mute run') {l l' : Script.Link} (h : l.Woven mute l') :
    Exec.Agrees mute Move.Alike (Move.ofLink run l) (Move.ofLink run' l') := by
  cases h with
  | property name p p' q q' safe => exact Exec.agrees_pure (.property name p p' q q' safe)
  | method name h p p' q q' safe =>
    refine (Exec.agrees_mapM h fun _ _ he => hrun.expr he).bind fun vs vs' hv => Exec.agrees_pure ?_
    obtain rfl : vs = vs' := by simpa using hv
    exact .method name vs _ _ p p' q q' safe
  | index h p p' safe => exact (hrun.expr h).bind_eq fun v => Exec.agrees_pure (.index v _ _ p p' safe)

namespace Place

theorem agrees_assign (he : env.Twin mute env') (constant : Bool) {w w' : Write} (hw : w.Alike w') :
    Agrees mute Eq (assign env constant w) (assign env' constant w') := by
  obtain ⟨op, value, p, root, q⟩ := w
  obtain ⟨_, _, p', _, q'⟩ := w'
  obtain ⟨rfl, rfl, rfl⟩ := hw
  refine Agrees.guard (agrees_fault rfl _ _) (.ite (agrees_set _) ?_)
  refine .machine_bind fun m m' hm => .get_bind fun old => ?_
  rw [he.backend, hm.text]
  refine (Agrees.lift (Exec.agrees_ofExcept _ _ _)).bind_eq fun new => ?_
  split
  · exact (agrees_checkSize he _ _ _).bind fun _ _ _ => agrees_set _
  · exact (agrees_set _).bind fun _ _ _ => agrees_checkSize he _ _ _

theorem agrees_assigned (he : env.Twin mute env') {w w' : Write} (hw : w.Alike w') (old : Value) :
    Agrees mute Eq (assigned env w old) (assigned env' w' old) :=
  (Agrees.lift ((agrees_assign he false hw).onValue old)).bind_eq fun _ => agrees_pure rfl

/-- A key reaches the same part of a value, or none, wherever it stands in the text. -/
theorem part_alike (mute : Bool) (target key : Value) (p p' q q' : Pos) :
    (∃ r, part target key p q = .ok r ∧ part target key p' q' = .ok r) ∨
      ∃ s s', part target key p q = .error s ∧ part target key p' q' = .error s' ∧ s.Twin mute s' := by
  unfold part
  dsimp only
  split
  · exact .inl ⟨_, rfl, rfl⟩
  · exact .inr ⟨_, _, rfl, rfl, .fault rfl _ _⟩
  · split
    · exact .inl ⟨_, rfl, rfl⟩
    · exact .inr ⟨_, _, rfl, rfl, .fault rfl _ _⟩
  · split
    · exact .inl ⟨_, rfl, rfl⟩
    · exact .inr ⟨_, _, rfl, rfl, .fault rfl _ _⟩
  · exact .inl ⟨_, rfl, rfl⟩
  · split
    · exact .inl ⟨_, rfl, rfl⟩
    · exact .inr ⟨_, _, rfl, rfl, .fault rfl _ _⟩
  · exact .inr ⟨_, _, rfl, rfl, .fault rfl _ _⟩
  · exact .inr ⟨_, _, rfl, rfl, .fault rfl _ _⟩
  · exact .inr ⟨_, _, rfl, rfl, .fault rfl _ _⟩
  · exact .inr ⟨_, _, rfl, rfl, .fault rfl _ _⟩

theorem agrees_writeStored (he : env.Twin mute env') (key : Value) (constant : Bool) {w w' : Write}
    (hw : w.Alike w') (p p' q q' : Pos) :
    Agrees mute Eq (writeStored env key constant w p q) (writeStored env' key constant w' p' q') := by
  refine .get_bind fun target => Agrees.bind_eq ?_ fun r => ?_
  · rcases part_alike mute target key p p' q q' with ⟨r, h, h'⟩ | ⟨s, s', h, h', hs⟩
    · rw [h, h']
      exact agrees_pure rfl
    · rw [h, h']
      exact agrees_throw hs
  · have checked (wanted : String) : Agrees mute Eq (do
        assign env constant w
        let new ← get
        if new.typeName != wanted then fault (.mismatch wanted new.typeName) w.pos) (do
        assign env' constant w'
        let new ← get
        if new.typeName != wanted then fault (.mismatch wanted new.typeName) w'.pos) := by
      refine (agrees_assign he constant hw).bind fun _ _ _ => .get_bind fun new => ?_
      exact .ite (agrees_fault rfl _ _) (agrees_pure rfl)
    dsimp only
    split
    · exact (checked _).inside _ _
    · exact (checked _).inside _ _
    · refine Agrees.inside ?_ _ _
      exact (agrees_assign he constant hw).bind fun _ _ _ => .get_bind fun new => agrees_checkSize he new _ _

theorem agrees_writePart (he : env.Twin mute env') (key : Value) (constant : Bool) {w w' : Write}
    (hw : w.Alike w') (p p' q q' : Pos) :
    Agrees mute Eq (writePart env key constant w p q) (writePart env' key constant w' p' q') := by
  have written := agrees_writeStored he key constant hw p p' q q'
  rw [writePart_eq, writePart_eq]
  refine .get_bind fun target => ?_
  dsimp only
  split
  · split
    · exact Agrees.guard (f := fun _ => _) (g := fun _ => _) (agrees_set _) written
    · exact written
  · exact written

theorem agrees_hostedGet (he : env.Twin mute env') (target key : Value) (p p' : Pos) :
    Agrees mute Eq (lift (Exec.at_ p (Exec.hostedGet env target key))) (lift (Exec.at_ p' (Exec.hostedGet env' target key))) :=
  Agrees.lift ((Exec.agrees_hostedGet he target key).at_ p p')

theorem agrees_hostedSet (he : env.Twin mute env') (target key v : Value) (p p' : Pos) :
    Agrees mute Eq (lift (Exec.at_ p (Exec.hostedSet env target key v)))
      (lift (Exec.at_ p' (Exec.hostedSet env' target key v))) :=
  Agrees.lift ((Exec.agrees_hostedSet he target key v).at_ p p')

theorem agrees_readProperty (he : env.Twin mute env') (name : String) (p p' q q' : Pos) :
    Agrees mute Eq (readProperty env name p q) (readProperty env' name p' q') := by
  refine .get_bind fun target => ?_
  split
  · exact agrees_pure rfl
  · exact .ite (agrees_hostedGet he _ _ _ _) (agrees_fault rfl _ _)

theorem agrees_writeProperty (he : env.Twin mute env') (name : String) {w w' : Write} (hw : w.Alike w')
    (p p' q q' : Pos) : Agrees mute Eq (writeProperty env name w p q) (writeProperty env' name w' p' q') := by
  refine .get_bind fun target => ?_
  have written (new : Value) : Agrees mute Eq
      (if isIndexed target then lift (Exec.at_ q (Exec.hostedSet env target (.str name) new))
      else
        fault (.noProperty ("No writable property '" ++ name ++ "' - a setter is not registered for type '" ++
          target.typeName ++ "' to handle '" ++ new.typeName ++ "'")) p)
      (if isIndexed target then lift (Exec.at_ q' (Exec.hostedSet env' target (.str name) new))
      else
        fault (.noProperty ("No writable property '" ++ name ++ "' - a setter is not registered for type '" ++
          target.typeName ++ "' to handle '" ++ new.typeName ++ "'")) p') :=
    .ite (agrees_hostedSet he _ _ _ _ _) (agrees_fault rfl _ _)
  rw [hw.op]
  dsimp only
  refine .ite ?_ ?_
  · rw [hw.value]
    exact Agrees.bind_eq (agrees_pure rfl) written
  · exact (agrees_readProperty he name p p' q q').bind_eq fun v => (agrees_assigned he hw v).bind_eq written

theorem agrees_writeIndexed (he : env.Twin mute env') (key : Value) {w w' : Write} (hw : w.Alike w') (p p' : Pos) :
    Agrees mute Eq (writeIndexed env key w p) (writeIndexed env' key w' p') := by
  refine .get_bind fun target => ?_
  have written (new : Value) : Agrees mute Eq (lift (Exec.at_ p (Exec.hostedSet env target key new)))
      (lift (Exec.at_ p' (Exec.hostedSet env' target key new))) := agrees_hostedSet he _ _ _ _ _
  rw [hw.op]
  dsimp only
  refine .ite ?_ ?_
  · rw [hw.value]
    exact Agrees.bind_eq (agrees_pure rfl) written
  · refine Agrees.bind_eq (Agrees.handling ?_ (fun s hs => ?_) (fun s hs => ?_) fun s s' hs => ?_) fun old => ?_
    · exact (Agrees.lift (Exec.agrees_hostedGet he _ _)).bind_eq fun _ => agrees_pure rfl
    · cases s with
      | halted | tooLarge | tooDeep => rfl
      | _ => cases hs
    · cases s with
      | halted | tooLarge | tooDeep => rfl
      | _ => cases hs
    · cases hs with
      | fault h p p' => exact agrees_pure rfl
      | returned v => exact agrees_throw (.returned v)
      | broken h => exact agrees_throw (.broken h)
      | continued => exact agrees_throw .continued
    · split
      · exact (agrees_assigned he hw _).bind_eq written
      · rw [hw.value]
        exact Agrees.bind_eq (agrees_pure rfl) written

theorem agrees_followPart (key : Value) (p p' q q' : Pos) {x y : Place (Value × Bool)} (h : Agrees mute Eq x y) :
    Agrees mute Eq (walk.followPart key p q x) (walk.followPart key p' q' y) := by
  refine .get_bind fun target => ?_
  rcases part_alike mute target key p p' q q' with ⟨r, hr, hr'⟩ | ⟨s, s', hr, hr', hs⟩
  · rw [hr, hr']
    exact h.inside _ _
  · rw [hr, hr']
    exact agrees_throw hs

theorem agrees_walk (he : env.Twin mute env') (hrun : run.Twin mute run') {moves moves' : List Move}
    (h : List.Forall₂ Move.Alike moves moves') (constant inPlace : Bool) {write write' : Option Write}
    (hw : Option.Rel Write.Alike write write') :
    Agrees mute Eq (walk env run moves constant inPlace write) (walk env' run' moves' constant inPlace write') := by
  induction h generalizing constant inPlace write write' with
  | nil => exact .get_bind fun _ => agrees_pure rfl
  | @cons move move' rest rest' hmove hrest ih =>
    rw [walk, walk]
    have hempty : rest'.isEmpty = rest.isEmpty := by cases hrest <;> rfl
    have hsafe : move'.isSafe = move.isSafe := by cases hmove <;> rfl
    have copied (v : Value) (inPlace : Bool) : Agrees mute Eq (lift (onValue v (walk env run rest false inPlace write)))
        (lift (onValue v (walk env' run' rest' false inPlace write'))) :=
      Agrees.lift ((ih false inPlace hw).onValue v)
    have found : Agrees mute Eq (do return (← get, false) : Place (Value × Bool)) (do return (← get, false)) :=
      .get_bind fun _ => agrees_pure rfl
    refine .get_bind fun target => ?_
    rw [hempty, hsafe]
    refine .ite (agrees_pure rfl) ?_
    dsimp only
    -- a part of a value is walked in its place; what the host has is walked as a copy and then written back
    cases hmove with
    | method name args a a' p p' q q' safe =>
      dsimp only
      refine (agrees_callMethod he hrun _ _ _ _ _ _ _ _).bind_eq fun r => ?_
      exact .ite (agrees_pure rfl) ((copied _ _).bind_eq fun _ => agrees_pure rfl)
    | property name p p' q q' safe =>
      dsimp only
      split
      · refine .ite ?_ (agrees_followPart _ _ _ _ _ (ih _ _ hw))
        cases hw with
        | none => exact agrees_followPart _ _ _ _ _ found
        | some hw =>
          refine (agrees_writePart he _ _ hw _ _ _ _).bind fun _ _ _ => .get_bind fun v => ?_
          exact (agrees_checkSize he _ _ _).bind fun _ _ _ => agrees_pure rfl
      · cases hr : rest.isEmpty with
        | true =>
          cases hw with
          | none => exact (agrees_readProperty he _ _ _ _ _).bind_eq fun _ => agrees_pure rfl
          | some hw => exact (agrees_writeProperty he _ hw _ _ _ _).bind fun _ _ _ => agrees_pure rfl
        | false =>
          refine (agrees_readProperty he _ _ _ _ _).bind_eq fun v => (copied _ _).bind_eq fun r => ?_
          exact Agrees.guard (f := fun _ => _) (g := fun _ => _) (agrees_hostedSet he _ _ _ _ _) (agrees_pure rfl)
    | index key p p' q q' safe =>
      dsimp only
      refine .ite ?_ (.ite ?_ (agrees_followPart _ _ _ _ _ (ih _ _ hw)))
      · cases hr : rest.isEmpty with
        | true =>
          cases hw with
          | none => exact (agrees_hostedGet he _ _ _ _).bind_eq fun _ => agrees_pure rfl
          | some hw => exact (agrees_writeIndexed he _ hw _ _).bind fun _ _ _ => agrees_pure rfl
        | false =>
          refine (agrees_hostedGet he _ _ _ _).bind_eq fun v => (copied _ _).bind_eq fun r => ?_
          exact Agrees.guard (f := fun _ => _) (g := fun _ => _) (agrees_hostedSet he _ _ _ _ _) (agrees_pure rfl)
      · cases hw with
        | none => exact agrees_followPart _ _ _ _ _ found
        | some hw => exact (agrees_writePart he _ _ hw _ _ _ _).bind fun _ _ _ => agrees_pure rfl

end Place

end Parts

end ScriptAgent
