/-!
# Aborting

An abort latch fires at most once and keeps the first reason it was given.
-/

namespace ScriptAgent

/-- The first reason given to abort, if any. -/
structure AbortLatch where
  reason : Option String := none
deriving DecidableEq, Repr

namespace AbortLatch

/-- Whether the latch has fired. -/
def isFired (a : AbortLatch) : Bool :=
  a.reason.isSome

/-- Fires the latch, unless it has fired already. -/
def fire (a : AbortLatch) (reason : String) : AbortLatch :=
  ⟨a.reason.or (some reason)⟩

theorem fire_reason (a : AbortLatch) (reason : String) (h : a.reason = none) :
    (a.fire reason).reason = some reason := by
  simp [fire, h]

theorem fire_of_isFired (a : AbortLatch) (reason : String) (h : a.isFired) : a.fire reason = a := by
  cases a with
  | mk r => cases r <;> simp_all [fire, isFired]

/-- Fires the latch with one reason after the other. -/
def fireAll (a : AbortLatch) (reasons : List String) : AbortLatch :=
  reasons.foldl fire a

theorem fireAll_append (a : AbortLatch) (before after : List String) :
    a.fireAll (before ++ after) = (a.fireAll before).fireAll after :=
  List.foldl_append

theorem fireAll_of_isFired (a : AbortLatch) (reasons : List String) (h : a.isFired) : a.fireAll reasons = a := by
  induction reasons with
  | nil => rfl
  | cons reason rest ih => rw [fireAll, List.foldl_cons, fire_of_isFired a reason h, ← fireAll, ih]

/-- The first reason counts, the latch's own before those that are given. -/
theorem fireAll_reason (a : AbortLatch) (reasons : List String) :
    (a.fireAll reasons).reason = a.reason.or reasons.head? := by
  cases reasons with
  | nil => exact Option.or_none.symm
  | cons reason rest =>
    have fired : (a.fire reason).isFired := by
      cases h : a.reason <;> simp [fire, isFired, h]
    rw [show a.fireAll (reason :: rest) = (a.fire reason).fireAll rest from rfl, fireAll_of_isFired _ _ fired]
    rfl

end AbortLatch

end ScriptAgent
