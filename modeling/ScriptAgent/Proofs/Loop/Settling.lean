import Mathlib.Logic.Function.Iterate
import ScriptAgent.Proofs.Json.Storable
import ScriptAgent.Proofs.Loop.Rereading

/-!
# Settling once

A snapshot is settled by the first act that settles it, however often it is written and read back before or
after that: its status then stays, every other attempt to settle it is refused, and so is every run that should
go on from it.  Its value stays as it was if texts keep it.  A text that changes a double changes what a snapshot
was settled with, though not that it was.
-/

namespace ScriptAgent

/-! ### Snapshots that texts keep -/

namespace ToolCallInfo

variable {c : ToolCallInfo} {n : Nat}

theorem storable_stored (h : c.toJson.Storable (n + 1)) : c.stored.toJson.Storable (n + 1) := by
  rw [toJson, Json.storable_recordOf_iff (by simp)] at h ⊢
  simp only [List.forall_mem_cons] at h ⊢
  obtain ⟨hid, hname, hobject, hinput, houtput, hrest⟩ := h
  exact ⟨hid, hname, hobject, fun v hv => hinput v (Option.filter_eq_some_iff.mp hv).1,
    fun v hv => houtput v (Option.filter_eq_some_iff.mp hv).1, hrest⟩

/-- A call is kept if its input and its schemas are. -/
theorem storable_toJson (hinput : c.input.Storable (n + 1)) (hin : ∀ v ∈ c.inputSchema, v.Storable (n + 1))
    (hout : ∀ v ∈ c.outputSchema, v.Storable (n + 1)) (hassignment : ∀ a ∈ c.assignment, a.Fits) :
    c.toJson.Storable (n + 2) := by
  rw [toJson, Json.storable_recordOf_iff (by simp)]
  simp only [List.forall_mem_cons]
  refine ⟨by simp, by simp, fun v hv => ?_, hin, hout, by simpa using hinput, fun v hv => ?_, List.forall_mem_nil _⟩
  · obtain ⟨name, -, rfl⟩ := Option.map_eq_some_iff.mp hv
    exact Json.storable_str name
  · obtain ⟨a, ha, rfl⟩ := Option.map_eq_some_iff.mp hv
    have hline : a.line < UInt64.size := Nat.lt_trans (hassignment a ha) (by decide)
    rw [Assignment.toJson, Json.storable_object_iff (by simp)]
    simp [Json.storable_nat hline]

end ToolCallInfo

namespace Interrupt

variable {d : Interrupt} {n : Nat}

theorem storable_stored (h : d.toJson.Storable (n + 2)) : d.stored.toJson.Storable (n + 2) := by
  rw [toJson, Json.storable_recordOf_iff (by simp [entries])] at h ⊢
  simp only [entries, List.forall_mem_cons] at h ⊢
  obtain ⟨hreason, hcall, hrest⟩ := h
  refine ⟨hreason, fun v hv => ?_, hrest⟩
  obtain ⟨call, hstored, rfl⟩ := Option.map_eq_some_iff.mp hv
  obtain ⟨call, hmem, rfl⟩ := Option.map_eq_some_iff.mp hstored
  exact ToolCallInfo.storable_stored (hcall _ (Option.map_eq_some_iff.mpr ⟨call, hmem, rfl⟩))

theorem storable_toJson (hcall : ∀ c ∈ d.toolCall, c.toJson.Storable n) (hvariables : (Json.obj d.variables).Storable n)
    (hfits : d.Fits) : d.toJson.Storable (n + 1) := by
  rw [toJson, Json.storable_recordOf_iff (by simp [entries])]
  simp only [entries, List.forall_mem_cons]
  refine ⟨by simp, fun v hv => ?_, by simpa using hvariables, fun v hv => ?_, fun v hv => ?_,
    List.forall_mem_nil _⟩
  · obtain ⟨c, hc, rfl⟩ := Option.map_eq_some_iff.mp hv
    exact hcall c hc
  · obtain ⟨line, hline, rfl⟩ := Option.map_eq_some_iff.mp hv
    exact Json.storable_nat (Nat.lt_trans (hfits.line line hline) (by decide))
  · obtain ⟨stack, -, rfl⟩ := Option.map_eq_some_iff.mp hv
    exact Json.storable_str stack

theorem Fits.stored (h : d.Fits) : d.stored.Fits := by
  refine ⟨fun c hc a ha => ?_, h.line⟩
  obtain ⟨call, hmem, rfl⟩ := Option.map_eq_some_iff.mp hc
  exact h.assignment call hmem a ha

end Interrupt

namespace Snapshot

/-- A snapshot that its text keeps: what it has of numbers fits, and so does its form as a value. -/
structure Storable (s : Snapshot) : Prop where
  fits : s.Fits
  form : s.toJson.Storable 127

/-- A snapshot is kept if the values of its signal, its variables and its status are. -/
theorem storable_of_parts {s : Snapshot} (fits : s.Fits) (hsignal : s.signal.toJson.Storable 126)
    (hvariables : (Json.obj s.variables).Storable 126) (hstatus : s.status.toJson.Storable 126) : s.Storable := by
  refine ⟨fits, ?_⟩
  rw [toJson, Json.storable_recordOf_iff (by simp)]
  simp only [List.forall_mem_cons]
  refine ⟨by simp, by simp, by simpa using hsignal, by simpa using hvariables, by simp, fun v hv => ?_,
    by simpa using hstatus, by simpa using Json.storable_nat fits.createdAt, List.forall_mem_nil _⟩
  obtain ⟨fingerprint, -, rfl⟩ := Option.map_eq_some_iff.mp hv
  exact Json.storable_str fingerprint

theorem Storable.read? {s : Snapshot} (h : s.Storable) : read? s.write = some s.stored := by
  have htext : Json.parse? s.toJson.compact = some s.toJson := h.form.parse?_compact (by decide)
  show (Json.parse? s.toJson.compact).bind ofJson? = _
  rw [htext]
  exact ofJson?_toJson h.fits

theorem Storable.stored {s : Snapshot} (h : s.Storable) : s.stored.Storable := by
  refine ⟨⟨h.fits.signal.stored, h.fits.createdAt⟩, ?_⟩
  have hform := h.form
  rw [toJson, Json.storable_recordOf_iff (by simp)] at hform ⊢
  simp only [List.forall_mem_cons] at hform ⊢
  obtain ⟨hid, hreason, hsignal, hrest⟩ := hform
  refine ⟨hid, hreason, fun v hv => ?_, hrest⟩
  obtain rfl := Option.some.inj hv
  exact Interrupt.storable_stored (hsignal _ rfl)

theorem Storable.settled {s : Snapshot} (h : s.Storable) {status : SnapshotStatus}
    (hstatus : status.toJson.Storable 126) : ({ s with status } : Snapshot).Storable := by
  refine ⟨⟨h.fits.signal, h.fits.createdAt⟩, ?_⟩
  have hform := h.form
  rw [toJson, Json.storable_recordOf_iff (by simp)] at hform ⊢
  simp only [List.forall_mem_cons] at hform ⊢
  obtain ⟨hid, hreason, hsignal, hvariables, hstack, hfingerprint, -, hrest⟩ := hform
  refine ⟨hid, hreason, hsignal, hvariables, hstack, hfingerprint, fun v hv => ?_, hrest⟩
  obtain rfl := Option.some.inj hv
  exact hstatus

/-! ### Acts -/

/-- What is done with a snapshot: it is settled with a value or an error, or written and read back. -/
inductive Act where
  | resolve (value : Json)
  | reject (error : String)
  | keep

/-- The status an act settles a snapshot with. -/
def Act.status? : Act → Option SnapshotStatus
  | .resolve value => some (.resolved value)
  | .reject error => some (.rejected error)
  | .keep => none

/-- Whether an act writes a snapshot and reads it back. -/
def Act.isKeep : Act → Bool
  | .keep => true
  | _ => false

/-- An act whose value texts keep, where the status of a snapshot has it. -/
structure Act.Storable (a : Act) : Prop where
  value : ∀ value, a = .resolve value → value.Storable 125

/-- The snapshot after an act: what a refused act leaves is the snapshot itself, and so is what a text leaves
that cannot be read. -/
def after (s : Snapshot) : Act → Snapshot
  | .resolve value => (s.resolve value).toOption.getD s
  | .reject error => (s.reject error).toOption.getD s
  | .keep => (Snapshot.read? s.write).getD s

/-- The snapshot after acts. -/
def afterAll (s : Snapshot) (acts : List Act) : Snapshot :=
  acts.foldl after s

/-- The status after acts: the one it is settled with, be it before the acts or by the first of them that
settles it. -/
def statusAfter (s : Snapshot) (acts : List Act) : SnapshotStatus :=
  if s.isSettled then s.status else (acts.findSome? Act.status?).getD s.status

theorem settle_of_settled {s : Snapshot} (h : s.isSettled = true) (status : SnapshotStatus) :
    s.settle status = .error (.snapshot ("Snapshot " ++ s.id ++ " is already settled")) :=
  if_pos h

theorem settle_of_pending {s : Snapshot} (h : s.isSettled = false) (status : SnapshotStatus) :
    s.settle status = .ok { s with status } :=
  if_neg (by simp [h])

section Step

variable {s : Snapshot} {a : Act} {status : SnapshotStatus}

theorem Act.eq_keep (h : a.status? = none) : a = .keep := by
  cases a with
  | keep => rfl
  | _ => cases h

theorem Act.isKeep_of_status (h : a.status? = some status) : a.isKeep = false := by
  cases a with
  | keep => cases h
  | _ => rfl

theorem Act.isSettled_status (h : a.status? = some status) : ({ s with status } : Snapshot).isSettled = true := by
  cases a <;> cases h <;> rfl

theorem Act.Storable.form (ha : a.Storable) (h : a.status? = some status) : status.toJson.Storable 126 := by
  cases a with
  | keep => cases h
  | resolve value =>
    cases h
    rw [SnapshotStatus.toJson, Json.storable_object_iff (by simp)]
    simpa using ha.value value rfl
  | reject error =>
    cases h
    rw [SnapshotStatus.toJson, Json.storable_object_iff (by simp)]
    simp

/-- An act that settles a snapshot is refused if it is settled, and leaves it as it is. -/
theorem after_of_status (h : a.status? = some status) : s.after a = if s.isSettled then s else { s with status } := by
  have hafter : s.after a = (s.settle status).toOption.getD s := by
    cases a <;> cases h <;> rfl
  rw [hafter]
  cases hsettled : s.isSettled with
  | true =>
    rw [settle_of_settled hsettled]
    rfl
  | false =>
    rw [settle_of_pending hsettled]
    rfl

/-- After an act that settles a snapshot, or is refused, no other act changes the status. -/
theorem statusAfter_cons (h : a.status? = some status) (rest : List Act) :
    s.statusAfter (a :: rest) = (s.after a).statusAfter rest := by
  rw [after_of_status h]
  cases hsettled : s.isSettled with
  | true => simp [statusAfter, hsettled]
  | false =>
    have hnow := Act.isSettled_status (s := s) h
    simp [statusAfter, hsettled, hnow, h]

/-- A snapshot that is written and read back is the same, but for schemas that were null. -/
theorem Storable.after_keep (h : s.Storable) : s.after .keep = s.stored := by
  rw [after, h.read?]
  rfl

theorem Storable.after (h : s.Storable) (ha : a.Storable) : (s.after a).Storable := by
  cases hstatus : a.status? with
  | none =>
    obtain rfl := Act.eq_keep hstatus
    exact h.after_keep ▸ h.stored
  | some status =>
    rw [after_of_status hstatus]
    split
    · exact h
    · exact h.settled (ha.form hstatus)

end Step

/-! ### Acts one after the other -/

theorem stored_stored (s : Snapshot) : s.stored.stored = s.stored := by
  have hschema (schema : Option Json) : (schema.filter (!·.isNull)).filter (!·.isNull) = schema.filter (!·.isNull) := by
    rw [Option.filter_filter]
    simp
  have hcall (c : ToolCallInfo) : c.stored.stored = c.stored := by
    simp only [ToolCallInfo.stored, hschema]
  have hsignal : s.signal.stored.stored = s.signal.stored := by
    simp only [Interrupt.stored, Option.map_map, Function.comp_def, hcall]
  simp only [stored, hsignal]

/-- A snapshot as it is after it was kept, if it was. -/
def storedIf (kept : Bool) (s : Snapshot) : Snapshot :=
  if kept then s.stored else s

/-- Acts settle a snapshot once: what it was settled with stays, through every text, and nothing else changes
but for schemas that were null. -/
theorem Storable.afterAll_eq {s : Snapshot} {acts : List Act} (h : s.Storable) (hacts : ∀ a ∈ acts, a.Storable) :
    (s.afterAll acts).Storable ∧
      s.afterAll acts = storedIf (acts.any Act.isKeep) { s with status := s.statusAfter acts } := by
  induction acts generalizing s with
  | nil =>
    refine ⟨h, ?_⟩
    simp [afterAll, storedIf, statusAfter]
  | cons a rest ih =>
    obtain ⟨ha, hrest⟩ := List.forall_mem_cons.mp hacts
    obtain ⟨hstorable, hafter⟩ := ih (h.after ha) hrest
    refine ⟨hstorable, hafter.trans ?_⟩
    cases hstatus : a.status? with
    | none =>
      -- what is read back is settled as before, and reading back once more changes nothing
      obtain rfl := Act.eq_keep hstatus
      rw [h.after_keep]
      show storedIf (rest.any Act.isKeep) ({ s with status := s.statusAfter rest } : Snapshot).stored =
        ({ s with status := s.statusAfter rest } : Snapshot).stored
      unfold storedIf
      split
      · exact stored_stored _
      · rfl
    | some status =>
      rw [statusAfter_cons hstatus, List.any_cons, Act.isKeep_of_status hstatus, Bool.false_or,
        after_of_status hstatus]
      split <;> rfl

/-! ### Texts that change doubles -/

theorem Readable.after_keep {s : Snapshot} (h : s.Readable) : s.after .keep = s.reread.stored := by
  rw [after, h.read?]
  rfl

theorem isSettled_reread (s : Snapshot) : s.reread.isSettled = s.isSettled := by
  unfold isSettled reread SnapshotStatus.reread
  cases s.status <;> rfl

theorem reread_of_not_isSettled {s : Snapshot} (h : s.isSettled = false) : s.status.reread = s.status := by
  unfold isSettled at h
  cases hstatus : s.status with
  | pending => rfl
  | _ => simp [hstatus] at h

/-- The status a snapshot is settled with stays, but for doubles, which may be others with each text. -/
theorem status_afterAll {s : Snapshot} {acts : List Act} (h : ∀ n, (s.afterAll (acts.take n)).Readable) :
    ∃ k, (s.afterAll acts).status = SnapshotStatus.reread^[k] (s.statusAfter acts) := by
  induction acts generalizing s with
  | nil => exact ⟨0, by simp [afterAll, statusAfter]⟩
  | cons a rest ih =>
    have hs : s.Readable := h 0
    obtain ⟨k, hk⟩ := ih fun n => h (n + 1)
    have hafter : (s.afterAll (a :: rest)).status = SnapshotStatus.reread^[k] ((s.after a).statusAfter rest) := hk
    cases hstatus : a.status? with
    | none =>
      obtain rfl := Act.eq_keep hstatus
      have hkept : (s.after .keep).statusAfter rest =
          if s.isSettled then s.status.reread else (rest.findSome? Act.status?).getD s.status.reread := by
        rw [hs.after_keep, ← isSettled_reread]
        rfl
      rw [hkept] at hafter
      cases hsettled : s.isSettled with
      | true =>
        -- what it is settled with goes through one more text
        exact ⟨k + 1, by simpa [statusAfter, hsettled] using hafter⟩
      | false =>
        rw [reread_of_not_isSettled hsettled] at hafter
        exact ⟨k, by simpa [statusAfter, hsettled, hstatus] using hafter⟩
    | some status =>
      rw [statusAfter_cons hstatus]
      exact ⟨k, hafter⟩

end Snapshot

namespace Agent

open Snapshot (Act)

/-- Nothing is run from a snapshot that is settled already: the model is not asked, and the context stays. -/
theorem goOn_of_settled {s : Snapshot} (h : s.isSettled = true) (r : Agent) (c : Context) (w : World)
    (status : SnapshotStatus) : r.goOn c w (s.settle status) =
      ⟨.failed (.snapshot ("Snapshot " ++ s.id ++ " is already settled")), c, w⟩ := by
  rw [Snapshot.settle_of_settled h]
  rfl

/-- A snapshot is settled once.  As long as no act settles it, it is pending, and any attempt to settle it is
taken; the first act that does so fixes its status and what it reports to a run that goes on from it, whatever
is done then, and it is read back at any time.  An attempt to settle a snapshot that is settled is refused and
leaves it as it is, and a run that should go on from it that way ends at once with the context and the world as
they were.  Where texts change doubles, as long as they can be read, they change no more of the status that was
fixed. -/
theorem snapshot_settles_once {s : Snapshot} (pending : s.status = .pending) (storable : s.Storable)
    {acts : List Act} (hacts : ∀ a ∈ acts, a.Storable) :
    Snapshot.read? (s.afterAll acts).write = some (s.afterAll acts).stored ∧
    (∀ status, acts.findSome? Act.status? = some status →
      s.afterAll acts = Snapshot.storedIf (acts.any Act.isKeep) { s with status } ∧
      (s.afterAll acts).correlation =
        { ({ s with status } : Snapshot).correlation with toolCall := (s.afterAll acts).toolCall } ∧
      (s.afterAll acts).isSettled = true) ∧
    (acts.findSome? Act.status? = none →
      s.afterAll acts = Snapshot.storedIf (acts.any Act.isKeep) s ∧
      ∀ status, (s.afterAll acts).settle status = .ok { s.afterAll acts with status }) ∧
    (∀ t : Snapshot, t.isSettled = true →
      (∀ status, t.settle status = .error (.snapshot ("Snapshot " ++ t.id ++ " is already settled"))) ∧
      (∀ a : Act, a.status?.isSome → t.after a = t) ∧
      ∀ (r : Agent) (c : Context) (w : World),
        (∀ value, r.resolve c t value w =
          ⟨.failed (.snapshot ("Snapshot " ++ t.id ++ " is already settled")), c, w⟩) ∧
        ∀ error, r.reject c t error w =
          ⟨.failed (.snapshot ("Snapshot " ++ t.id ++ " is already settled")), c, w⟩) ∧
    ∀ (t : Snapshot) (more : List Act), (∀ n, (t.afterAll (more.take n)).Readable) →
      Snapshot.read? (t.afterAll more).write = some (t.afterAll more).reread.stored ∧
      ∃ k, (t.afterAll more).status = SnapshotStatus.reread^[k] (t.statusAfter more) := by
  obtain ⟨hstorable, hafter⟩ := storable.afterAll_eq hacts
  have hpending : s.isSettled = false := by
    rw [Snapshot.isSettled, pending]
  refine ⟨hstorable.read?, fun status hfirst => ?_, fun hnone => ?_, fun t ht => ⟨?_, ?_, ?_⟩,
    fun t more hreadable => ⟨?_, Snapshot.status_afterAll hreadable⟩⟩
  · have hstatus : s.statusAfter acts = status := by simp [Snapshot.statusAfter, hpending, hfirst]
    rw [hstatus] at hafter
    obtain ⟨a, -, ha⟩ := List.exists_of_findSome?_eq_some hfirst
    have hsettled := Act.isSettled_status (s := s) ha
    rw [hafter]
    refine ⟨rfl, ?_, ?_⟩
    · cases acts.any Act.isKeep <;> rfl
    · cases acts.any Act.isKeep <;> exact hsettled
  · have hstatus : s.statusAfter acts = s.status := by simp [Snapshot.statusAfter, hpending, hnone]
    rw [hstatus] at hafter
    refine ⟨hafter, fun status => Snapshot.settle_of_pending ?_ status⟩
    rw [hafter]
    cases acts.any Act.isKeep <;> exact hpending
  · exact Snapshot.settle_of_settled ht
  · intro a ha
    obtain ⟨status, hstatus⟩ := Option.isSome_iff_exists.mp ha
    rw [Snapshot.after_of_status hstatus, if_pos ht]
  · exact fun r c w => ⟨fun value => goOn_of_settled ht r c w _, fun error => goOn_of_settled ht r c w _⟩
  · have hlast := hreadable more.length
    rw [List.take_length] at hlast
    exact hlast.read?

theorem schemalessSnapshot_storable : schemalessSnapshot.Storable := by
  have hcall : ∀ c ∈ schemalessSnapshot.signal.toolCall, c.toJson.Storable 125 := by
    intro c hc
    obtain rfl := Option.some.inj hc
    refine ToolCallInfo.storable_toJson (Json.storable_nat (by decide)) ?_ nofun ?_
    · simp
    · intro a ha
      obtain rfl := Option.some.inj ha
      show 2 < UInt32.size
      decide
  have hsignal : schemalessSnapshot.signal.Fits := by
    refine ⟨fun c hc a ha => ?_, fun n hn => ?_⟩
    · obtain rfl := Option.some.inj hc
      obtain rfl := Option.some.inj ha
      show 2 < UInt32.size
      decide
    · obtain rfl := Option.some.inj hn
      decide
  refine Snapshot.storable_of_parts ⟨hsignal, by decide⟩ (Interrupt.storable_toJson hcall ?_ hsignal) ?_ ?_
  · exact Json.storable_obj_iff.mpr ⟨.nil, nofun⟩
  · exact Json.storable_obj_iff.mpr ⟨by decide, by simpa [schemalessSnapshot] using Json.storable_nat (by decide)⟩
  · exact (Json.storable_object_iff (by simp)).mpr (by simp)

/-- A snapshot that is settled with null between two texts stays so, and refuses an error. -/
theorem schemalessSnapshot_settles_once :
    (schemalessSnapshot.status = .pending ∧ schemalessSnapshot.Storable ∧
      ∀ a ∈ [Act.keep, .resolve .null, .keep, .reject "late"], a.Storable) ∧
    schemalessSnapshot.afterAll [.keep, .resolve .null, .keep, .reject "late"] =
      ({ schemalessSnapshot with status := .resolved .null } : Snapshot).stored := by
  have hacts : ∀ a ∈ [Act.keep, .resolve .null, .keep, .reject "late"], a.Storable := by
    simp only [List.forall_mem_cons]
    refine ⟨⟨nofun⟩, ⟨fun value hvalue => ?_⟩, ⟨nofun⟩, ⟨nofun⟩, nofun⟩
    cases hvalue
    exact Json.storable_null
  have hsettles := snapshot_settles_once rfl schemalessSnapshot_storable hacts
  exact ⟨⟨rfl, schemalessSnapshot_storable, hacts⟩, (hsettles.2.1 _ rfl).1⟩

/-- A pending snapshot without a call. -/
def plainSnapshot : Snapshot where
  id := "snap-1"
  reason := "wait"
  signal := { reason := "wait" }
  status := .pending
  createdAt := 0

/-- A text can change what a snapshot was settled with: that of this double is read as another one. -/
theorem settled_value_drifts : ¬ ∀ (s : Snapshot) (acts : List Act) (status : SnapshotStatus),
    s.status = .pending → acts.findSome? Act.status? = some status → (s.afterAll acts).status = status := by
  intro h
  have hstatus := h plainSnapshot [.resolve (.num (.float 9.999999999999999e-26)), .keep] _ rfl rfl
  have htext := congrArg (·.toJson.compact) hstatus
  exact absurd htext (by decide +kernel)

end Agent

end ScriptAgent
