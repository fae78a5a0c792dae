import ScriptAgent.Proofs.Window.ExactFit
import ScriptAgent.Proofs.Window.Shrinking

/-!
# What truncation keeps

Truncation changes the contents of messages only.  What is outside of markers stays as it is, and of a wrapped
text one end stays, or both.  Where both stay they are as long as each other, but for one character: a cut
takes from the middle of what is left, which is where the earlier cuts were made.
-/

namespace ScriptAgent

/-- What can be left of a text by keeping a side of it; where both ends are kept, the first one may be longer
by one character. -/
def Keep.Leaves (keep : Keep) (whole rest : List Char) : Prop :=
  match keep with
  | .top => rest <+: whole
  | .bottom => rest <:+ whole
  | .ends => ∃ before middle after, whole = before ++ (middle ++ after) ∧ rest = before ++ after ∧
      after.length ≤ before.length ∧ before.length ≤ after.length + 1

theorem Keep.leaves_refl (keep : Keep) (whole : List Char) : keep.Leaves whole whole := by
  cases keep with
  | top => exact List.prefix_refl whole
  | bottom => exact List.suffix_refl whole
  | ends =>
    refine ⟨whole.take ((whole.length + 1) / 2), [], whole.drop ((whole.length + 1) / 2), ?_, ?_, ?_⟩
    · rw [List.nil_append, List.take_append_drop]
    · rw [List.take_append_drop]
    · rw [List.length_take, List.length_drop]
      omega

/-- Where both ends are kept, the middle of what is left lies between them, so a cut takes as much from one as
from the other. -/
theorem Keep.Leaves.cutChars {keep : Keep} {whole rest : List Char} (h : keep.Leaves whole rest) (n : Nat) :
    keep.Leaves whole (Part.cutChars keep n rest) := by
  cases keep with
  | top => exact (List.take_prefix _ _).trans h
  | bottom => exact (List.drop_suffix _ _).trans h
  | ends =>
    obtain ⟨before, middle, after, rfl, rfl, hle, hle'⟩ := h
    have hmiddle : ((before ++ after).length + 1) / 2 = before.length := by
      rw [List.length_append]
      omega
    simp only [Part.cutChars, hmiddle]
    generalize (min n (before ++ after).length + 1) / 2 = radius
    refine ⟨before.take (before.length - radius),
      before.drop (before.length - radius) ++ (middle ++ after.take radius), after.drop radius, ?_, ?_, ?_⟩
    · have hbefore := List.take_append_drop (before.length - radius) before
      have hafter := List.take_append_drop radius after
      calc before ++ (middle ++ after)
        _ = (before.take (before.length - radius) ++ before.drop (before.length - radius)) ++
              (middle ++ (after.take radius ++ after.drop radius)) := by rw [hbefore, hafter]
        _ = _ := by simp only [List.append_assoc]
    · rw [List.take_append_of_le_length (Nat.sub_le _ _), List.drop_length_add_append]
    · rw [List.length_take, List.length_drop]
      omega

/-- What is left of a part: the side that its marker says, and everything if it was not wrapped. -/
structure Part.Trimmed (p q : Part) : Prop where
  wrapping : q.wrapping = p.wrapping
  fixed : p.wrapping = none → q = p
  side : ∀ o, p.wrapping = some o → o.keep.Leaves p.content q.content

theorem Part.Trimmed.refl (p : Part) : Trimmed p p :=
  ⟨rfl, fun _ => rfl, fun o _ => o.keep.leaves_refl _⟩

theorem Part.Trimmed.cut {p q : Part} (h : Trimmed p q) (hq : q.wrapping.isSome) (n : Nat) :
    Trimmed p (q.cut n) := by
  refine ⟨h.wrapping, fun hp => ?_, fun o ho => ?_⟩
  · rw [h.wrapping, hp] at hq
    cases hq
  · have hkeep : (q.wrapping.map (·.keep)).getD .top = o.keep := by rw [h.wrapping, ho]; rfl
    rw [Part.cut, hkeep]
    exact (h.side o ho).cutChars _

namespace Truncate

/-- A placed part and what is left of it. -/
def Trimmed (p q : Placed) : Prop :=
  q.message = p.message ∧ p.part.Trimmed q.part

theorem trimmed_set {ps qs : List Placed} (h : List.Forall₂ Trimmed ps qs) {i : Nat} {q r : Placed}
    (hq : qs[i]? = some q) (hr : ∀ p, Trimmed p q → Trimmed p r) : List.Forall₂ Trimmed ps (qs.set i r) := by
  induction h generalizing i with
  | nil => exact .nil
  | cons hhead htail ih =>
    cases i with
    | zero =>
      obtain rfl : _ = q := by simpa using hq
      exact .cons (hr _ hhead) htail
    | succ i => exact .cons hhead (ih (by simpa using hq))

theorem Shrinking.trimmed {limit : Nat} {ps qs : List Placed} {places : List Nat}
    (h : Shrinking limit ps places qs) : List.Forall₂ Trimmed ps qs := by
  induction h with
  | start => exact List.forall₂_same.mpr fun p _ => ⟨rfl, .refl p.part⟩
  | cut before above first step ih =>
    obtain ⟨n, p, -, -, hcut⟩ := cutBy_of_step above first step
    rw [hcut.result]
    have hwrapped := (Part.isShrinkable_iff.mp hcut.shrinkable).1
    exact trimmed_set ih hcut.found fun p' hp' => ⟨hp'.1, hp'.2.cut hwrapped n⟩

theorem forall₂_withParts {messages : List Message} {owns : List (List Part)} {P : Message → List Part → Prop}
    (h : List.Forall₂ P messages owns) :
    List.Forall₂ (fun m m' => ∃ own, P m own ∧ m' = withParts m own) messages
      (List.zipWith withParts messages owns) := by
  induction h with
  | nil => exact .nil
  | cons hown _ ih => exact .cons ⟨_, hown, rfl⟩ ih

/-- Truncation leaves every message, with another content: what is left of its own parts, one after the
other. -/
theorem truncation_keeps {messages shorter : List Message} {limit : Nat}
    (h : truncateMessages messages limit = .ok shorter) :
    List.Forall₂ (fun m m' => ∃ own, List.Forall₂ Part.Trimmed (Wrapping.parts m.content) own ∧
      m' = { m with content := Wrapping.join own }) messages shorter := by
  obtain ⟨places, qs, hqs, ⟨hok, -⟩ | ⟨herror, -⟩⟩ := truncateMessages_shrinks messages limit
  · obtain rfl := Except.ok.inj (h.symm.trans hok)
    have htrimmed := hqs.trimmed
    rw [placedFrom_eq] at htrimmed
    obtain ⟨owns, rfl, howns⟩ := exists_number_of_forall₂ (R := Part.Trimmed) htrimmed
    rw [rejoinFrom_number 0 (by simpa using howns.length_eq)]
    exact forall₂_withParts (List.forall₂_map_left_iff.mp howns)
  · rw [h] at herror
    cases herror

/-- A message of six tokens, of which four may go from the middle of a text. -/
def twoEnds : List Message :=
  [.user ("ends: " ++ Wrapping.wrapWith "abcdefghijklm" { keep := .ends })]

theorem truncation_keeps_twoEnds : truncateMessages twoEnds 4 = .ok [.user "ends: abclm"] ∧
    List.Forall₂ (fun m m' => ∃ own, List.Forall₂ Part.Trimmed (Wrapping.parts m.content) own ∧
      m' = { m with content := Wrapping.join own }) twoEnds [.user "ends: abclm"] := by
  have hok : truncateMessages twoEnds 4 = .ok [.user "ends: abclm"] := by decide +kernel
  exact ⟨hok, truncation_keeps hok⟩

end Truncate

end ScriptAgent
