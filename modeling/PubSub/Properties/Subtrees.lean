import PubSub.Properties.Matching

/-!
# Subtree subscriptions

A pattern whose only wildcard is a last level `*` stands for a subtree. The loop tests
for equality before it tests for the wildcard, so a topic that goes on below the subtree's
root with a level spelled `*` uses the wildcard up as a literal.
-/
namespace PubSub.Properties

open General

/-- A level of a topic or of a pattern: any bytes but a slash. -/
structure Level where
  text : Bytes
  whole : slash ∉ text

def starred : Level := ⟨starLevel, by decide⟩

def joinLevels (levels : List Level) : Bytes := [slash].intercalate (levels.map Level.text)

/-- Splitting undoes joining; a text without levels does not exist. -/
theorem splitParts_join (levels : List Level) (some_level : levels ≠ []) :
    splitParts (joinLevels levels) = levels.map Level.text := by
  rw [splitParts_eq, joinLevels]
  apply List.splitOn_intercalate
  · intro text member
    obtain ⟨level, -, rfl⟩ := List.mem_map.mp member
    exact level.whole
  · simpa using some_level

/-! ## How the loop ends -/

/-- The verdict of the loop from a position on, without fuel. -/
inductive Ends (topicParts patternParts : List Bytes) : Cursor → Bool → Prop
  | next {c d verdict} : c.iterate topicParts patternParts = .next d →
      Ends topicParts patternParts d verdict → Ends topicParts patternParts c verdict
  | leave {c} : c.iterate topicParts patternParts = .leave →
      Ends topicParts patternParts c (c.finish topicParts patternParts)
  | return {c verdict} : c.iterate topicParts patternParts = .return verdict →
      Ends topicParts patternParts c verdict

theorem Ends.verdict {topicParts patternParts : List Bytes} {c : Cursor} {verdict : Bool}
    (ends : Ends topicParts patternParts c verdict) (fuel : Nat) (returned : Bool)
    (result : matchLoop topicParts patternParts fuel c = some returned) : returned = verdict := by
  induction ends generalizing fuel with
  | next step _ ih =>
    cases fuel with
    | zero => cases result
    | succ fuel =>
      simp only [matchLoop, step] at result
      exact ih fuel result
  | leave step =>
    cases fuel with
    | zero => cases result
    | succ fuel =>
      simp only [matchLoop, step, Option.some.injEq] at result
      exact result.symm
  | «return» step =>
    cases fuel with
    | zero => cases result
    | succ fuel =>
      simp only [matchLoop, step, Option.some.injEq] at result
      exact result.symm

/-- A way to end decides what the matcher returns. -/
theorem topicMatchesPattern_ends (topic pattern : Bytes) (verdict : Bool)
    (ends : Ends (splitParts topic) (splitParts pattern) .start verdict) :
    topicMatchesPattern topic pattern = some verdict := by
  obtain ⟨returned, result⟩ := topicMatchesPattern_returns topic pattern
  rw [result, ends.verdict _ _ result]

/-- With the topic used up, the loop accepts if nothing but stars is left of the pattern. -/
theorem Ends.accept {topicParts patternParts : List Bytes} {c : Cursor}
    (done : c.tIdx = topicParts.length)
    (stars : (patternParts.drop c.pIdx).dropWhile (· = starLevel) = []) :
    Ends topicParts patternParts c true := by
  have matched : c.finish topicParts patternParts = true := by
    simp [Cursor.finish, done, stars]
  rw [← matched]
  apply Ends.leave
  simp only [Cursor.iterate]
  rw [if_neg (by omega)]

/-! ## A common front, then the wildcard -/

section

variable (front rest tail : List Bytes)

private theorem iterate_common (k : Nat) (inside : k < front.length) :
    Cursor.iterate (front ++ rest) (front ++ tail) ⟨k, k, 0, 0, false⟩ =
      .next ⟨k + 1, k + 1, 0, 0, false⟩ := by
  have topic : (front ++ rest)[k]? = some front[k] := by
    rw [List.getElem?_append_left inside, List.getElem?_eq_getElem inside]
  have pattern : (front ++ tail)[k]? = some front[k] := by
    rw [List.getElem?_append_left inside, List.getElem?_eq_getElem inside]
  simp only [Cursor.iterate]
  rw [if_pos (by rw [List.length_append]; omega), if_pos (by rw [List.length_append]; omega), topic,
    pattern]
  dsimp only
  rw [if_pos (.inr rfl)]

private theorem ends_from (verdict : Bool) (k : Nat) (within : k ≤ front.length)
    (ends : Ends (front ++ rest) (front ++ tail) ⟨k, k, 0, 0, false⟩ verdict) :
    Ends (front ++ rest) (front ++ tail) .start verdict := by
  induction k with
  | zero => exact ends
  | succ k ih => exact ih (by omega) (.next (iterate_common front rest tail k (by omega)) ends)

/-- Common levels are passed one by one, and no star is saved on the way. -/
theorem ends_front (verdict : Bool)
    (ends : Ends (front ++ rest) (front ++ tail) ⟨front.length, front.length, 0, 0, false⟩ verdict) :
    Ends (front ++ rest) (front ++ tail) .start verdict :=
  ends_from front rest tail verdict front.length (Nat.le_refl _) ends

private theorem iterate_swallow (t : Nat) (inside : t < (front ++ rest).length) :
    Cursor.iterate (front ++ rest) (front ++ [starLevel])
        ⟨t, front.length + 1, t, front.length, true⟩ =
      .next ⟨t + 1, front.length + 1, t + 1, front.length, true⟩ := by
  simp only [Cursor.iterate]
  -- The pattern is used up: each round falls back behind the saved star.
  rw [if_pos inside, if_neg (by simp)]
  simp only [Cursor.fallBack]
  rw [if_pos (by simp)]

/-- Once the star has been saved, the loop takes one level a round up to the end. -/
theorem ends_swallow (left t : Nat) (place : t + left = (front ++ rest).length) :
    Ends (front ++ rest) (front ++ [starLevel]) ⟨t, front.length + 1, t, front.length, true⟩ true := by
  induction left generalizing t with
  | zero => exact .accept place (by simp)
  | succ left ih => exact .next (iterate_swallow front rest t (by omega)) (ih (t + 1) (by omega))

end

section

variable (front rest : List Bytes)

private theorem pattern_last : (front ++ [starLevel])[front.length]? = some starLevel := by
  rw [List.getElem?_append_right (Nat.le_refl _), Nat.sub_self]
  rfl

/-- The front alone: the loop leaves, and the star takes no level. -/
theorem ends_root :
    Ends front (front ++ [starLevel]) ⟨front.length, front.length, 0, 0, false⟩ true :=
  .accept rfl (by simp)

/-- Any other level than `*` sets the star to work. -/
theorem ends_descend (level : Bytes) (plain : level ≠ starLevel) :
    Ends (front ++ level :: rest) (front ++ [starLevel])
      ⟨front.length, front.length, 0, 0, false⟩ true := by
  have topic : (front ++ level :: rest)[front.length]? = some level := by simp
  have different : ¬ (starLevel = plusLevel ∨ starLevel = level) := by
    rintro (plus | equal)
    · exact absurd plus (by decide)
    · exact plain equal.symm
  have saves : Cursor.iterate (front ++ level :: rest) (front ++ [starLevel])
      ⟨front.length, front.length, 0, 0, false⟩ =
        .next ⟨front.length, front.length + 1, front.length, front.length, true⟩ := by
    simp only [Cursor.iterate]
    rw [if_pos (by simp), if_pos (by simp), pattern_last, topic]
    dsimp only
    rw [if_neg different, if_pos rfl]
  exact .next saves (ends_swallow front (level :: rest) (level :: rest).length front.length
    (List.length_append ..).symm)

/-- A level `*` uses the wildcard up; without a saved star nothing else may follow. -/
theorem ends_collision :
    Ends (front ++ starLevel :: rest) (front ++ [starLevel])
      ⟨front.length, front.length, 0, 0, false⟩ (decide (rest = [])) := by
  have topic : (front ++ starLevel :: rest)[front.length]? = some starLevel := by simp
  have literal : Cursor.iterate (front ++ starLevel :: rest) (front ++ [starLevel])
      ⟨front.length, front.length, 0, 0, false⟩ =
        .next ⟨front.length + 1, front.length + 1, 0, 0, false⟩ := by
    simp only [Cursor.iterate]
    rw [if_pos (by simp), if_pos (by simp), pattern_last, topic]
    dsimp only
    rw [if_pos (.inr rfl)]
  apply Ends.next literal
  cases rest with
  | nil =>
    rw [decide_eq_true rfl]
    exact .accept (by simp) (by simp)
  | cons level rest =>
    rw [decide_eq_false (List.cons_ne_nil _ _)]
    apply Ends.return
    simp only [Cursor.iterate]
    rw [if_pos (by simp), if_neg (by simp)]
    rfl

/-- The verdict on a topic in the subtree. -/
def descends : List Bytes → Bool
  | [] => true
  | level :: rest => decide (level ≠ starLevel ∨ rest = [])

theorem ends_subtree : Ends (front ++ rest) (front ++ [starLevel]) .start (descends rest) := by
  apply ends_front
  cases rest with
  | nil =>
    rw [List.append_nil]
    exact ends_root front
  | cons level rest =>
    by_cases star : level = starLevel
    · subst star
      simpa [descends] using ends_collision front rest
    · simpa [descends, star] using ends_descend front rest level star

end

/-- A subtree subscription takes a topic below its root, unless the topic goes on with a
level `*` and then with others. -/
theorem subtree_iff (q rest : List Level) (some_level : q ++ rest ≠ []) :
    topicMatchesPattern (joinLevels (q ++ rest)) (joinLevels (q ++ [starred])) = some true ↔
      rest.head?.map Level.text ≠ some starLevel ∨ rest.length = 1 := by
  have ends := ends_subtree (q.map Level.text) (rest.map Level.text)
  have topic : splitParts (joinLevels (q ++ rest)) = q.map Level.text ++ rest.map Level.text := by
    rw [splitParts_join _ some_level, List.map_append]
  have pattern : splitParts (joinLevels (q ++ [starred])) = q.map Level.text ++ [starLevel] := by
    rw [splitParts_join _ (by simp), List.map_append]
    rfl
  rw [← topic, ← pattern] at ends
  rw [topicMatchesPattern_ends _ _ _ ends]
  cases rest with
  | nil => simp [descends]
  | cons level rest => simp [descends]

/-- `a/+/*` under `a/*`: pattern syntax further down does no harm. -/
theorem subtree_below :
    topicMatchesPattern (joinLevels ([⟨ascii "a", by decide⟩] ++ [⟨ascii "+", by decide⟩, starred]))
      (joinLevels ([⟨ascii "a", by decide⟩] ++ [starred])) = some true :=
  (subtree_iff [⟨ascii "a", by decide⟩] [⟨ascii "+", by decide⟩, starred] (by simp)).mpr
    (.inl (by decide))

/-- The pattern `*` does not take the topic `*/a`. -/
theorem star_misses : topicMatchesPattern (ascii "*/a") (ascii "*") = some false ∧
    ¬ ∀ q rest : List Level, (∀ level ∈ q, level.text ≠ plusLevel ∧ level.text ≠ starLevel) →
      q ++ rest ≠ [] →
      topicMatchesPattern (joinLevels (q ++ rest)) (joinLevels (q ++ [starred])) = some true := by
  refine ⟨by decide, ?_⟩
  intro all
  have matched := all [] [starred, ⟨ascii "a", by decide⟩] (by simp) (by simp)
  exact absurd matched (by decide)

end PubSub.Properties
