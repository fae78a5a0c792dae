import ScriptAgent.Proofs.Json.Text
import ScriptAgent.Proofs.Loop.Persistence

/-!
# Snapshots read back from their texts

The text of a snapshot is read as the snapshot, except that a schema of its call that was null is absent, and
that each double is the one its own text is read as.  What a text may change is so never whether a snapshot is
settled, nor an error it is settled with.
-/

namespace ScriptAgent

open Json (rereadFloats rereadFields rereadFloats_object rereadFloats_recordOf)

/-- A call whose doubles went through their texts. -/
def ToolCallInfo.reread (c : ToolCallInfo) : ToolCallInfo :=
  { c with
    inputSchema := c.inputSchema.map rereadFloats
    outputSchema := c.outputSchema.map rereadFloats
    input := c.input.rereadFloats }

/-- An interrupt whose doubles went through their texts. -/
def Interrupt.reread (d : Interrupt) : Interrupt :=
  { d with toolCall := d.toolCall.map (·.reread), «variables» := rereadFields d.variables }

/-- A status whose doubles went through their texts. -/
def SnapshotStatus.reread : SnapshotStatus → SnapshotStatus
  | resolved value => resolved value.rereadFloats
  | status => status

/-- A snapshot whose doubles went through their texts. -/
def Snapshot.reread (s : Snapshot) : Snapshot :=
  { s with
    signal := s.signal.reread
    «variables» := rereadFields s.variables
    status := s.status.reread }

/-! ### Forms without doubles -/

theorem Json.rereadFloats_map_str (x : Option String) : (x.map Json.str).map rereadFloats = x.map .str := by
  cases x <;> rfl

theorem Json.rereadFloats_map_nat (x : Option Nat) : (x.map Json.nat).map rereadFloats = x.map .nat := by
  cases x <;> rfl

theorem Assignment.rereadFloats_toJson (a : Assignment) : a.toJson.rereadFloats = a.toJson :=
  rereadFloats_object _

/-! ### Forms of what went through texts -/

theorem ToolCallInfo.rereadFloats_toJson (c : ToolCallInfo) : c.toJson.rereadFloats = c.reread.toJson := by
  have hassignment : (c.assignment.map Assignment.toJson).map rereadFloats = c.assignment.map Assignment.toJson := by
    rw [Option.map_map]
    exact Option.map_congr fun a _ => a.rereadFloats_toJson
  rw [toJson, rereadFloats_recordOf]
  simp only [Dict.mapValues, List.map_cons, List.map_nil, Json.rereadFloats_map_str, hassignment]
  rfl

theorem Interrupt.rereadFloats_toJson (d : Interrupt) : d.toJson.rereadFloats = d.reread.toJson := by
  have hcall : (d.toolCall.map ToolCallInfo.toJson).map rereadFloats =
      (d.toolCall.map ToolCallInfo.reread).map ToolCallInfo.toJson := by
    rw [Option.map_map, Option.map_map]
    exact Option.map_congr fun c _ => c.rereadFloats_toJson
  rw [toJson, rereadFloats_recordOf]
  simp only [entries, Dict.mapValues, List.map_cons, List.map_nil, Json.rereadFloats_map_str,
    Json.rereadFloats_map_nat, hcall]
  rfl

theorem SnapshotStatus.rereadFloats_toJson (status : SnapshotStatus) :
    status.toJson.rereadFloats = status.reread.toJson := by
  cases status <;> exact rereadFloats_object _

namespace Snapshot

theorem rereadFloats_toJson (s : Snapshot) : s.toJson.rereadFloats = s.reread.toJson := by
  rw [toJson, rereadFloats_recordOf]
  simp only [Dict.mapValues, List.map_cons, List.map_nil, Json.rereadFloats_map_str, Option.map_some,
    Interrupt.rereadFloats_toJson, SnapshotStatus.rereadFloats_toJson]
  rfl

/-! ### Texts that can be read -/

/-- A snapshot whose text can be read: its numbers fit, and no value in it is nested too deep. -/
structure Readable (s : Snapshot) : Prop where
  fits : s.Fits
  legible : s.toJson.Legible
  shallow : s.toJson.depth < Json.maxDepth

theorem Fits.reread {s : Snapshot} (h : s.Fits) : s.reread.Fits := by
  refine ⟨⟨fun c hc a ha => ?_, h.signal.line⟩, h.createdAt⟩
  obtain ⟨call, hcall, rfl⟩ := Option.map_eq_some_iff.mp hc
  exact h.signal.assignment call hcall a ha

/-- A text that can be read is read as the snapshot, but for doubles and null schemas. -/
theorem Readable.read? {s : Snapshot} (h : s.Readable) : read? s.write = some s.reread.stored := by
  have htext : Json.parse? s.toJson.compact = some s.toJson.rereadFloats :=
    Json.parse?_compact_of_legible h.legible h.shallow
  show (Json.parse? s.toJson.compact).bind ofJson? = _
  rw [htext, rereadFloats_toJson]
  exact ofJson?_toJson h.fits.reread

end Snapshot

end ScriptAgent
