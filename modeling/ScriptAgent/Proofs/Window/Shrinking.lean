import ScriptAgent.Proofs.Window.Cuts

/-!
# Cut after cut

Parts are shortened to a limit one cut at a time.  `Shrinking` keeps in which places cuts were made, so
that more can be said of what is left than how many tokens it has.  What truncation gives back is what is
left when no more is cut.
-/

namespace ScriptAgent

namespace Truncate

/-- What is left of parts while they are cut down to a limit, and the places of the cuts so far. -/
inductive Shrinking (limit : Nat) (ps : List Placed) : List Nat → List Placed → Prop
  | start : Shrinking limit ps [] ps
  | cut {places : List Nat} {qs rs : List Placed} {i : Nat} (before : Shrinking limit ps places qs)
      (above : limit < total qs) (first : (heaviest qs).first = some i)
      (step : step? qs (total qs - limit) = some rs) : Shrinking limit ps (places ++ [i]) rs

/-- A step is a cut of the heaviest part, as large as what was found calls for. -/
theorem cutBy_of_step {limit i : Nat} {qs rs : List Placed} (above : limit < total qs)
    (first : (heaviest qs).first = some i) (step : step? qs (total qs - limit) = some rs) :
    ∃ n p, 0 < n ∧ n = cutSize p.part (heaviest qs).nextTokens (total qs - limit) ∧ CutBy n qs rs i p := by
  obtain ⟨n, rs', p, hpos, -, hn, hcut, hstep⟩ := step?_of_first (Nat.sub_pos_of_lt above) first
  obtain rfl : rs' = rs := Option.some.inj (hstep.symm.trans step)
  exact ⟨n, p, hpos, hn, hcut⟩

/-- Shrinking goes on until the limit is reached or nothing can be cut, and tells of the tokens then left if
there are too many. -/
theorem Shrinking.ends {limit fuel : Nat} {start ps : List Placed} {places : List Nat}
    (h : Shrinking limit start places ps) (hfuel : total ps ≤ fuel) :
    ∃ places qs, Shrinking limit start places qs ∧
      (shrink limit fuel ps = .ok qs ∧ total qs ≤ limit ∨
        shrink limit fuel ps = .error (total qs) ∧ limit < total qs ∧ ∀ q ∈ qs, q.part.isShrinkable = false) := by
  induction fuel generalizing places ps with
  | zero => exact ⟨places, ps, h, .inl ⟨rfl, by omega⟩⟩
  | succ fuel ih =>
    rcases Nat.lt_or_ge limit (total ps) with hover | hfits
    · cases hfirst : (heaviest ps).first with
      | none =>
        have hall := heaviest_first_none.mp hfirst
        have hstep := (step?_eq_none_iff ps (Nat.sub_pos_of_lt hover)).mpr hall
        exact ⟨places, ps, h, .inr ⟨by simp [shrink, Nat.not_le.mpr hover, hstep], hover, hall⟩⟩
      | some i =>
        obtain ⟨n, rs, p, hpos, -, -, hcut, hstep⟩ := step?_of_first (Nat.sub_pos_of_lt hover) hfirst
        have htotal := hcut.total
        have hshrink : shrink limit (fuel + 1) ps = shrink limit fuel rs := by
          simp [shrink, Nat.not_le.mpr hover, hstep]
        rw [hshrink]
        exact ih (h.cut hover hfirst hstep) (by omega)
    · exact ⟨places, ps, h, .inl ⟨by simp [shrink, hfits], hfits⟩⟩

/-- Truncation gives back what shrinking leaves of the parts of the messages. -/
theorem truncateMessages_shrinks (messages : List Message) (limit : Nat) :
    ∃ places qs, Shrinking limit (placedFrom 0 messages) places qs ∧
      (truncateMessages messages limit = .ok (rejoinFrom qs 0 messages) ∧ total qs ≤ limit ∨
        truncateMessages messages limit = .error (total qs) ∧ limit < total qs ∧
          ∀ q ∈ qs, q.part.isShrinkable = false) := by
  have hstart : Shrinking limit (placedFrom 0 messages) [] (placedFrom 0 messages) := .start
  obtain ⟨places, qs, hqs, hend⟩ := hstart.ends (Nat.le_refl _)
  refine ⟨places, qs, hqs, ?_⟩
  rcases hend with ⟨hok, hfits⟩ | ⟨herror, hover, hall⟩
  · exact .inl ⟨by simp only [truncateMessages, hok, bind, Except.bind, pure, Except.pure], hfits⟩
  · exact .inr ⟨by simp only [truncateMessages, herror, bind, Except.bind], hover, hall⟩

end Truncate

end ScriptAgent
