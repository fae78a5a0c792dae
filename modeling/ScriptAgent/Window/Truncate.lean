import ScriptAgent.Model.Message
import ScriptAgent.Window.Wrapping

/-!
# Truncation

Wrapped texts are shortened, the heaviest first, until a list of messages has no more tokens than
allowed.
-/

namespace ScriptAgent

namespace Part

/-- About how many tokens the part has. -/
def tokens (p : Part) : Nat :=
  Text.tokensOf p.content.length

/-- How many tokens the part keeps in any case. -/
def least (p : Part) : Nat :=
  match p.wrapping with
  | some o => o.least
  | none => p.tokens

/-- Whether the part may be shortened. -/
def isShrinkable (p : Part) : Bool :=
  p.wrapping.isSome && p.least < p.tokens

/-- What decides which part is cut. -/
def weight (p : Part) : Nat :=
  p.tokens * (p.wrapping.map (·.flex)).getD 1

/-- Characters without `n` of them, on the side that is not kept. -/
def cutChars (keep : Keep) (n : Nat) (cs : List Char) : List Char :=
  let n := min n cs.length
  match keep with
  | .top => cs.take (cs.length - n)
  | .bottom => cs.drop n
  | .ends =>
    let middle := (cs.length + 1) / 2
    let radius := (n + 1) / 2
    cs.take (middle - radius) ++ cs.drop (middle + radius)

/-- The part with so many tokens cut. -/
def cut (p : Part) (tokens : Nat) : Part :=
  { p with content := cutChars ((p.wrapping.map (·.keep)).getD .top) (tokens * 4) p.content }

end Part

namespace Truncate

/-- A part with the number of the message it belongs to. -/
structure Placed where
  message : Nat
  part : Part
deriving DecidableEq, Repr

/-- The smallest cut made in one step, in tokens. -/
def leastCut : Nat := 250

/-- The tokens of all parts. -/
def total (ps : List Placed) : Nat :=
  (ps.map (·.part.tokens)).foldr (· + ·) 0

/-- The heaviest part so far, and the heaviest of the others. -/
structure Heaviest where
  /-- The place of the heaviest part. -/
  first : Option Nat := none
  tokens : Nat := 0
  weight : Nat := 0
  nextTokens : Nat := 0
  nextWeight : Nat := 0
deriving DecidableEq, Repr

/-- Takes one more part into account. -/
def Heaviest.see (h : Heaviest) (place : Nat) (p : Part) : Heaviest :=
  if !p.isShrinkable then h
  else if h.first.isNone || h.weight < p.weight then
    if h.first.isNone then { h with first := some place, tokens := p.tokens, weight := p.weight }
    else ⟨some place, p.tokens, p.weight, h.tokens, h.weight⟩
  else if h.nextWeight < p.weight then { h with nextTokens := p.tokens, nextWeight := p.weight }
  else h

/-- The heaviest of parts that can still be shortened, the first of them standing at a place. -/
def heaviestFrom (h : Heaviest) : Nat → List Placed → Heaviest
  | _, [] => h
  | place, p :: rest => heaviestFrom (h.see place p.part) (place + 1) rest

/-- The heaviest of all parts that can still be shortened. -/
def heaviest (ps : List Placed) : Heaviest :=
  heaviestFrom {} 0 ps

/-- How many tokens are cut from a part when there are so many too many. -/
def cutSize (p : Part) (nextTokens excess : Nat) : Nat :=
  let n := min (min (max (p.tokens - nextTokens) leastCut) p.tokens) excess
  if p.tokens - n < p.least then p.tokens - p.least else n

/-- One cut of the heaviest part, if it makes the part smaller. -/
def step? (ps : List Placed) (excess : Nat) : Option (List Placed) := do
  let h := heaviest ps
  let place ← h.first
  let p ← ps[place]?
  let n := cutSize p.part h.nextTokens excess
  let shorter := p.part.cut n
  if n == 0 || shorter.tokens ≥ p.part.tokens then none
  else some (ps.set place { p with part := shorter })

/-- Cuts until the parts have at most `limit` tokens, or fails with the tokens there still are.
Every cut takes at least one token away, so as much fuel as there are tokens is enough. -/
def shrink (limit : Nat) : Nat → List Placed → Except Nat (List Placed)
  | 0, ps => .ok ps
  | fuel + 1, ps =>
    let current := total ps
    if current ≤ limit then .ok ps
    else
      match step? ps (current - limit) with
      | none => .error current
      | some ps => shrink limit fuel ps

/-- The parts of messages, the first message having a number. -/
def placedFrom : Nat → List Message → List Placed
  | _, [] => []
  | n, m :: rest => (Wrapping.parts m.content).map (⟨n, ·⟩) ++ placedFrom (n + 1) rest

/-- The messages with what is left of their parts. -/
def rejoinFrom (ps : List Placed) : Nat → List Message → List Message
  | _, [] => []
  | n, m :: rest =>
    let own := (ps.filter (·.message == n)).map (·.part)
    { m with content := Wrapping.join own } :: rejoinFrom ps (n + 1) rest

end Truncate

/-- Messages without markers and shortened to at most `limit` tokens; if that is not possible, the
tokens that were left. -/
def truncateMessages (messages : List Message) (limit : Nat) : Except Nat (List Message) := do
  let ps := Truncate.placedFrom 0 messages
  let shrunk ← Truncate.shrink limit (Truncate.total ps) ps
  return Truncate.rejoinFrom shrunk 0 messages

/-- The least and the greatest number of tokens that are left for a response. -/
def responseRoom : Nat × Nat := (1000, 16000)

/-- How many tokens a message window may have with a model that takes so many. -/
def windowBudget (size : Nat) : Nat :=
  size - min (max (size / 10) responseRoom.1) responseRoom.2

end ScriptAgent
