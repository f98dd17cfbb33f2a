import PubSub.General.Bytes

/-! `topic_matches_pattern` of `server.cpp`. -/
namespace PubSub

open General

def slash : UInt8 := 47
def plusLevel : Bytes := [43]
def starLevel : Bytes := [42]

/-- The splitting loop: `find` the next slash, push the `substr` in front of it. -/
def splitLoop : Nat → Bytes → List Bytes
  | 0, rest => [rest]
  | fuel + 1, rest =>
    match rest.idxOf? slash with
    | some stop => rest.take stop :: splitLoop fuel (rest.drop (stop + 1))
    | none => [rest]

-- Each round drops at least the slash it found.
def splitParts (text : Bytes) : List Bytes := splitLoop text.length text

/-- The variables of the main loop. -/
structure Cursor where
  tIdx : Nat
  pIdx : Nat
  tBack : Nat
  pBack : Nat
  backtrack : Bool
  deriving DecidableEq, Repr

def Cursor.start : Cursor := ⟨0, 0, 0, 0, false⟩

inductive LoopStep where
  | next (c : Cursor)
  | leave
  | return (verdict : Bool)
  | outOfBounds
  deriving DecidableEq, Repr

/-- Case 3 of the loop body: fall back behind the last `*`, or give up. -/
def Cursor.fallBack (patternParts : List Bytes) (c : Cursor) : LoopStep :=
  if c.backtrack ∧ c.pBack < patternParts.length then
    .next { c with tBack := c.tBack + 1, tIdx := c.tBack + 1, pIdx := c.pBack + 1 }
  else .return false

/-- One round of `while (t_idx < topic_parts.size())`. -/
def Cursor.iterate (topicParts patternParts : List Bytes) (c : Cursor) : LoopStep :=
  if c.tIdx < topicParts.length then
    if c.pIdx < patternParts.length then
      match patternParts[c.pIdx]?, topicParts[c.tIdx]? with
      | some p, some t =>
        -- Equality is tested first: against a level `*`, the wildcard takes just that level.
        if p = plusLevel ∨ p = t then .next { c with tIdx := c.tIdx + 1, pIdx := c.pIdx + 1 }
        else if p = starLevel then
          .next { c with tBack := c.tIdx, pBack := c.pIdx, pIdx := c.pIdx + 1, backtrack := true }
        else c.fallBack patternParts
      | _, _ => .outOfBounds
    else c.fallBack patternParts
  else .leave

/-- Behind the loop: skip the trailing `*` levels and test that both sides are used up. -/
def Cursor.finish (topicParts patternParts : List Bytes) (c : Cursor) : Bool :=
  c.tIdx = topicParts.length ∧ ((patternParts.drop c.pIdx).dropWhile (· = starLevel)) = []

/-- The main loop; none when it runs out of fuel or leaves the bounds of a vector. -/
def matchLoop (topicParts patternParts : List Bytes) : Nat → Cursor → Option Bool
  | 0, _ => none
  | fuel + 1, c =>
    match c.iterate topicParts patternParts with
    | .next c' => matchLoop topicParts patternParts fuel c'
    | .leave => some (c.finish topicParts patternParts)
    | .return verdict => some verdict
    | .outOfBounds => none

/-- Rounds the loop can take for vectors of these sizes. -/
def matchFuel (topicSize patternSize : Nat) : Nat :=
  (patternSize + 2) * ((topicSize + 1) * (topicSize + 1)) + 1

def topicMatchesPattern (topic pattern : Bytes) : Option Bool :=
  let topicParts := splitParts topic
  let patternParts := splitParts pattern
  matchLoop topicParts patternParts (matchFuel topicParts.length patternParts.length) .start

end PubSub
