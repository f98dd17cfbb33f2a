import PubSub.General.Glob
import PubSub.Server.Matching
import Mathlib.Logic.Relation
import Mathlib.Tactic.Ring

/-!
# Topic matching decides the declared relation

The main loop of `topic_matches_pattern` works on indices; `Cursor.scan` reads its
variables as a position of the greedy scan. The loop ends because its variables,
read as the digits of one number, count down.
-/
namespace PubSub.Properties

open General

/-! ## Splitting -/

private theorem idxOf?_split (text : Bytes) (stop : Nat) (found : text.idxOf? slash = some stop) :
    text = text.take stop ++ slash :: text.drop (stop + 1) ∧ slash ∉ text.take stop := by
  induction text generalizing stop with
  | nil => simp at found
  | cons byte text ih =>
    rw [List.idxOf?_cons] at found
    by_cases here : byte = slash
    · simp only [here, beq_self_eq_true, if_true, Option.some.injEq] at found
      subst found
      simp [here]
    · simp only [beq_iff_eq, here, if_false, Option.map_eq_some_iff] at found
      obtain ⟨before, found, rfl⟩ := found
      obtain ⟨split, clean⟩ := ih before found
      constructor
      · simpa using split
      · simp only [List.take_succ_cons, List.mem_cons, not_or]
        exact ⟨fun equal => here equal.symm, clean⟩

private theorem splitLoop_eq (fuel : Nat) (text : Bytes) (enough : text.length ≤ fuel) :
    splitLoop fuel text = text.splitOn slash := by
  induction fuel generalizing text with
  | zero =>
    have empty : text = [] := List.length_eq_zero_iff.mp (by omega)
    subst empty
    rfl
  | succ fuel ih =>
    simp only [splitLoop]
    split
    next stop found =>
      obtain ⟨split, clean⟩ := idxOf?_split text stop found
      have shorter : (text.drop (stop + 1)).length ≤ fuel := by
        rw [List.length_drop]; omega
      -- One round cuts off the piece in front of the first slash, as `splitOn` does.
      rw [ih _ shorter]
      conv_rhs => rw [split]
      symm
      apply List.splitOnP_append_cons_of_forall_mem
      · intro byte member
        rw [beq_eq_false_iff_ne]
        rintro rfl
        exact clean member
      · simp
    next none =>
      have absent : slash ∉ text := List.idxOf?_eq_none_iff.mp none
      exact (List.splitOn_eq_singleton absent).symm

/-- The levels are the pieces between slashes, empty ones included. -/
theorem splitParts_eq (text : Bytes) : splitParts text = text.splitOn slash :=
  splitLoop_eq text.length text (Nat.le_refl _)

/-! ## The loop as a scan -/

/-- What a level of a pattern stands for. -/
def wildOf (level : Bytes) : Wild Bytes :=
  if level = plusLevel then .one else if level = starLevel then .many else .lit level

theorem wildOf_many_iff (level : Bytes) : wildOf level = .many ↔ level = starLevel := by
  simp only [wildOf]
  split_ifs with plus star
  · subst plus
    simp [plusLevel, starLevel]
  · simp [star]
  · simp [star]

section Loop

variable (topicParts patternParts : List Bytes)

/-- The position of the greedy scan the variables of the loop stand for. -/
def scanOf (c : Cursor) : Glob.Scan Bytes where
  pattern := (patternParts.drop c.pIdx).map wildOf
  text := topicParts.drop c.tIdx
  saved := if c.backtrack then
      some ((patternParts.drop (c.pBack + 1)).map wildOf, topicParts.drop c.tBack)
    else none

/-- The indices stay within the vectors, the saved ones behind the current ones. -/
structure InBounds (c : Cursor) : Prop where
  topic : c.tIdx ≤ topicParts.length
  pattern : c.pIdx ≤ patternParts.length
  saved : c.backtrack = true → c.tBack ≤ c.tIdx ∧ c.pBack < c.pIdx

theorem start_inBounds : InBounds topicParts patternParts .start :=
  ⟨Nat.zero_le _, Nat.zero_le _, by simp [Cursor.start]⟩

/-- The loop variables as digits to the base of one more than the topic's size. -/
def countdown (c : Cursor) : Nat :=
  let n := topicParts.length
  let tried := if c.backtrack then c.pBack + 1 else 0
  let shift := if c.backtrack then c.tBack else 0
  ((patternParts.length + 1 - tried) * (n + 1) + (n - shift)) * (n + 1) + (n - c.tIdx)

private theorem digit_lt (n x y c d : Nat) (less : x < y) (digit : c ≤ n) :
    x * (n + 1) + c < y * (n + 1) + d := by
  have bound : (x + 1) * (n + 1) ≤ y * (n + 1) := Nat.mul_le_mul_right _ less
  rw [Nat.add_mul] at bound
  omega

/-- What one round of the loop can do. -/
inductive Round (c : Cursor) : LoopStep → Prop
  | advance {p t} : patternParts[c.pIdx]? = some p → topicParts[c.tIdx]? = some t →
      (p = plusLevel ∨ p = t) →
      Round c (.next { c with tIdx := c.tIdx + 1, pIdx := c.pIdx + 1 })
  | star {t} : patternParts[c.pIdx]? = some starLevel → topicParts[c.tIdx]? = some t →
      starLevel ≠ t →
      Round c (.next { c with tBack := c.tIdx, pBack := c.pIdx, pIdx := c.pIdx + 1, backtrack := true })
  | fallBack {t} : topicParts[c.tIdx]? = some t →
      (∀ p, patternParts[c.pIdx]? = some p → p ≠ plusLevel ∧ p ≠ t ∧ p ≠ starLevel) →
      c.backtrack = true →
      Round c (.next { c with tBack := c.tBack + 1, tIdx := c.tBack + 1, pIdx := c.pBack + 1 })
  | fail {t} : topicParts[c.tIdx]? = some t →
      (∀ p, patternParts[c.pIdx]? = some p → p ≠ plusLevel ∧ p ≠ t ∧ p ≠ starLevel) →
      c.backtrack = false → Round c (.return false)
  | leave : c.tIdx = topicParts.length → Round c .leave

variable {topicParts patternParts}

private theorem fallBack_round (c : Cursor) (bounds : InBounds topicParts patternParts c) (t : Bytes)
    (ht : topicParts[c.tIdx]? = some t)
    (stuck : ∀ p, patternParts[c.pIdx]? = some p → p ≠ plusLevel ∧ p ≠ t ∧ p ≠ starLevel) :
    Round topicParts patternParts c (c.fallBack patternParts) := by
  simp only [Cursor.fallBack]
  split
  next saved => exact .fallBack ht stuck saved.1
  next unsaved =>
    refine .fail ht stuck ?_
    by_contra back
    -- A saved star stands in front of the current place, so within the pattern.
    have held := bounds.saved (by simpa using back)
    have limit := bounds.pattern
    exact unsaved ⟨by simpa using back, by omega⟩

/-- Every round is one of these; in particular no vector is read out of bounds. -/
theorem iterate_round (c : Cursor) (bounds : InBounds topicParts patternParts c) :
    Round topicParts patternParts c
      (c.iterate topicParts patternParts) := by
  simp only [Cursor.iterate]
  split
  next more =>
    have ht : topicParts[c.tIdx]? = some topicParts[c.tIdx] := List.getElem?_eq_getElem more
    split
    next inside =>
      have hp : patternParts[c.pIdx]? = some patternParts[c.pIdx] := List.getElem?_eq_getElem inside
      rw [hp, ht]
      dsimp only
      split_ifs with equal star
      · exact .advance hp ht equal
      · rw [star] at hp equal
        simp only [not_or] at equal
        exact .star hp ht equal.2
      · apply fallBack_round c bounds _ ht
        intro p found
        rw [hp, Option.some.injEq] at found
        subst found
        simp only [not_or] at equal
        exact ⟨equal.1, equal.2, star⟩
    next outside =>
      apply fallBack_round c bounds _ ht
      intro p found
      rw [List.getElem?_eq_none (by omega)] at found
      cases found
  next done => exact .leave (by have := bounds.topic; omega)

theorem round_inBounds (c d : Cursor) (bounds : InBounds topicParts patternParts c)
    (round : Round topicParts patternParts c (.next d)) :
    InBounds topicParts patternParts d := by
  obtain ⟨topic, pattern, saved⟩ := bounds
  cases round with
  | advance hp ht _ =>
    have insideP := (List.getElem?_eq_some_iff.mp hp).1
    have insideT := (List.getElem?_eq_some_iff.mp ht).1
    exact ⟨insideT, insideP, fun back => by have := saved back; dsimp only at *; omega⟩
  | star hp ht _ =>
    have insideP := (List.getElem?_eq_some_iff.mp hp).1
    exact ⟨topic, insideP, fun _ => by dsimp only; omega⟩
  | fallBack ht _ back =>
    have insideT := (List.getElem?_eq_some_iff.mp ht).1
    have held := saved back
    exact ⟨by dsimp only; omega, by dsimp only; omega, fun _ => by dsimp only; omega⟩

/-- Each round counts down, although a fall-back moves both indices backwards. -/
theorem round_countdown (c d : Cursor) (bounds : InBounds topicParts patternParts c)
    (round : Round topicParts patternParts c (.next d)) :
    countdown topicParts patternParts d < countdown topicParts patternParts c := by
  obtain ⟨topic, pattern, saved⟩ := bounds
  cases round with
  | advance hp ht _ =>
    have insideT := (List.getElem?_eq_some_iff.mp ht).1
    -- Only the last digit changes.
    simp only [countdown]
    omega
  | star hp ht _ =>
    have insideP := (List.getElem?_eq_some_iff.mp hp).1
    simp only [countdown, if_true]
    -- The leading digit drops: this star stands behind the one saved before.
    have leading : patternParts.length + 1 - (c.pIdx + 1) <
        patternParts.length + 1 - (if c.backtrack = true then c.pBack + 1 else 0) := by
      split
      next back => have := saved back; omega
      · omega
    apply digit_lt _ _ _ _ _ _ (by omega)
    exact digit_lt _ _ _ _ _ leading (by omega)
  | fallBack ht _ back =>
    have insideT := (List.getElem?_eq_some_iff.mp ht).1
    have held := saved back
    -- The middle digit drops: the same star is tried one level further on.
    simp only [countdown, back, if_true]
    apply digit_lt _ _ _ _ _ _ (by omega)
    omega

/-- The fuel suffices: the loop ends with a verdict for every topic and pattern. -/
theorem matchLoop_returns (fuel : Nat) (c : Cursor) (bounds : InBounds topicParts patternParts c)
    (enough : countdown topicParts patternParts c < fuel) :
    ∃ verdict, matchLoop topicParts patternParts fuel c = some verdict := by
  induction fuel generalizing c with
  | zero => omega
  | succ fuel ih =>
    -- The countdown stays below the fuel, so the fuel outlasts the rounds.
    have round := iterate_round c bounds
    simp only [matchLoop]
    generalize c.iterate topicParts patternParts = result at round
    cases result with
    | next d =>
      have fewer := round_countdown c d bounds round
      exact ih d (round_inBounds c d bounds round) (by omega)
    | leave => exact ⟨_, rfl⟩
    | «return» verdict => exact ⟨_, rfl⟩
    | outOfBounds => cases round

theorem start_countdown :
    countdown topicParts patternParts .start < matchFuel topicParts.length patternParts.length := by
  -- At the start no star is saved: the leading digit is the largest there is.
  have middle := digit_lt topicParts.length (patternParts.length + 1) (patternParts.length + 2)
    topicParts.length 0 (by omega) (Nat.le_refl _)
  have last := digit_lt topicParts.length _ _ topicParts.length 0 middle (Nat.le_refl _)
  simp only [countdown, matchFuel, Cursor.start, Bool.false_eq_true, if_false, Nat.sub_zero]
  simp only [Nat.add_zero] at last
  rw [← Nat.mul_assoc]
  exact Nat.lt_succ_of_lt last

/-- A stuck position of the scan, where the pattern's next level does not fit. -/
private theorem step_stuck (c : Cursor) (t : Bytes) (ht : topicParts[c.tIdx]? = some t)
    (stuck : ∀ p, patternParts[c.pIdx]? = some p → p ≠ plusLevel ∧ p ≠ t ∧ p ≠ starLevel) :
    Glob.step (scanOf topicParts patternParts c) =
      Glob.retry (scanOf topicParts patternParts c).saved := by
  have text := drop_of_getElem? ht
  -- Stuck means a pattern that is used up, or a literal other than the level.
  cases hp : patternParts[c.pIdx]? with
  | none =>
    have empty : patternParts.drop c.pIdx = [] :=
      List.drop_eq_nil_of_le (List.getElem?_eq_none_iff.mp hp)
    simp only [scanOf, text, empty, List.map_nil, Glob.step]
  | some p =>
    obtain ⟨plus, other, star⟩ := stuck p hp
    have pattern := drop_of_getElem? hp
    simp only [scanOf, text, pattern, List.map_cons, wildOf, if_neg plus, if_neg star, Glob.step,
      if_neg other]

/-- Where topic and pattern do not both have a level `*`, one round of the loop is one
step of the scan. -/
theorem round_scan (c : Cursor) (bounds : InBounds topicParts patternParts c)
    (plain : starLevel ∈ topicParts → starLevel ∉ patternParts) (result : LoopStep)
    (round : Round topicParts patternParts c result) :
    Glob.step (scanOf topicParts patternParts c) = match result with
      | .next d => .inl (scanOf topicParts patternParts d)
      | .leave => .inr (c.finish topicParts patternParts)
      | .return verdict => .inr verdict
      | .outOfBounds => .inr false := by
  cases round with
  | @advance p t hp ht equal =>
    have pattern := drop_of_getElem? hp
    have text := drop_of_getElem? ht
    by_cases plus : p = plusLevel
    · simp [scanOf, pattern, text, wildOf, plus, Glob.step]
    · obtain rfl : p = t := equal.resolve_left plus
      -- The loop tests for equality first; no star meets a star.
      have star : p ≠ starLevel := by
        rintro rfl
        exact plain (List.mem_of_getElem? ht) (List.mem_of_getElem? hp)
      simp [scanOf, pattern, text, wildOf, plus, star, Glob.step]
  | @star t hp ht _ =>
    have pattern := drop_of_getElem? hp
    have text := drop_of_getElem? ht
    have many : wildOf starLevel = .many := (wildOf_many_iff _).mpr rfl
    simp only [scanOf, pattern, text, List.map_cons, many, Glob.step, if_true]
  | @fallBack t ht stuck back =>
    rw [step_stuck c t ht stuck]
    have held := bounds.saved back
    have insideT := (List.getElem?_eq_some_iff.mp ht).1
    have savedText := drop_of_getElem? (List.getElem?_eq_getElem (show c.tBack < topicParts.length by omega))
    simp only [scanOf, back, if_true, savedText, Glob.retry]
  | @fail t ht stuck back =>
    rw [step_stuck c t ht stuck]
    simp [scanOf, back, Glob.retry]
  | leave done =>
    have text : topicParts.drop c.tIdx = [] := List.drop_eq_nil_of_le (by omega)
    have verdict : (((patternParts.drop c.pIdx).map wildOf).all (· = .many)) =
        c.finish topicParts patternParts := by
      rw [Cursor.finish, Bool.eq_iff_iff, List.all_map, List.all_eq_true, decide_eq_true_eq,
        List.dropWhile_eq_nil_iff]
      simp [done, wildOf_many_iff]
    simp only [scanOf, text, Glob.step, verdict]

theorem matchLoop_halts (fuel : Nat) (c : Cursor) (bounds : InBounds topicParts patternParts c)
    (plain : starLevel ∈ topicParts → starLevel ∉ patternParts) (verdict : Bool)
    (returned : matchLoop topicParts patternParts fuel c = some verdict) :
    Glob.Halts (scanOf topicParts patternParts c) verdict := by
  induction fuel generalizing c with
  | zero => cases returned
  | succ fuel ih =>
    have round := iterate_round c bounds
    have scanned := round_scan c bounds plain _ round
    simp only [matchLoop] at returned
    generalize c.iterate topicParts patternParts = result at round scanned returned
    cases result with
    | next d => exact .next scanned (ih d (round_inBounds c d bounds round) returned)
    | leave => cases returned; exact .done scanned
    | «return» verdict => cases returned; exact .done scanned
    | outOfBounds => cases returned

end Loop

/-- `topic_matches_pattern` returns, whatever topic and pattern are. -/
theorem topicMatchesPattern_returns (topic pattern : Bytes) :
    ∃ verdict, topicMatchesPattern topic pattern = some verdict :=
  matchLoop_returns _ _ (start_inBounds _ _) start_countdown

/-- A position of the variables that the loop comes to. -/
def LoopReaches (topicParts patternParts : List Bytes) : Cursor → Prop :=
  Relation.ReflTransGen (fun c d => c.iterate topicParts patternParts = .next d) .start

theorem LoopReaches.inBounds {topicParts patternParts : List Bytes} {c : Cursor}
    (reached : LoopReaches topicParts patternParts c) : InBounds topicParts patternParts c := by
  induction reached with
  | refl => exact start_inBounds _ _
  | tail _ step bounds =>
    have round := iterate_round _ bounds
    rw [step] at round
    exact round_inBounds _ _ bounds round

/-- No round leaves the vectors, every round counts down, and the loop returns. -/
theorem topicMatchesPattern_terminates (topic pattern : Bytes) :
    (∀ c, LoopReaches (splitParts topic) (splitParts pattern) c →
      c.iterate (splitParts topic) (splitParts pattern) ≠ .outOfBounds ∧
      ∀ d, c.iterate (splitParts topic) (splitParts pattern) = .next d →
        countdown (splitParts topic) (splitParts pattern) d <
          countdown (splitParts topic) (splitParts pattern) c) ∧
    ∃ verdict, topicMatchesPattern topic pattern = some verdict := by
  refine ⟨?_, topicMatchesPattern_returns topic pattern⟩
  intro c reached
  have round := iterate_round c reached.inBounds
  constructor
  · intro outside
    rw [outside] at round
    cases round
  · intro d step
    rw [step] at round
    exact round_countdown c d reached.inBounds round

/-! ## The declared relation -/

/-- Topic levels against pattern levels, as documented. -/
inductive LevelsMatch : List Bytes → List Bytes → Prop
  | empty : LevelsMatch [] []
  | plus {level topic pattern} :
      LevelsMatch topic pattern → LevelsMatch (level :: topic) (plusLevel :: pattern)
  | star {topic pattern} (skipped : List Bytes) :
      LevelsMatch topic pattern → LevelsMatch (skipped ++ topic) (starLevel :: pattern)
  | literal {level topic pattern} : level ≠ plusLevel → level ≠ starLevel →
      LevelsMatch topic pattern → LevelsMatch (level :: topic) (level :: pattern)

theorem levelsMatch_iff (topic pattern : List Bytes) :
    LevelsMatch topic pattern ↔ Glob.Matches (pattern.map wildOf) topic := by
  constructor
  · intro h
    induction h with
    | empty => exact .nil
    | plus _ ih => exact .one ih
    | star skipped _ ih =>
      rw [List.map_cons, (wildOf_many_iff _).mpr rfl]
      exact .many skipped ih
    | @literal level topic pattern plus star _ ih =>
      have lit : wildOf level = .lit level := by simp [wildOf, plus, star]
      rw [List.map_cons, lit]
      exact .lit ih
  · -- The level of the pattern decides which rule has been used.
    induction pattern generalizing topic with
    | nil =>
      intro h
      cases h
      exact .empty
    | cons level pattern ih =>
      intro h
      rw [List.map_cons, wildOf] at h
      split_ifs at h with plus star
      · subst plus
        cases h with
        | one h => exact .plus (ih _ h)
      · subst star
        cases h with
        | many skipped h => exact .star skipped (ih _ h)
      · cases h with
        | lit h => exact .literal plus star (ih _ h)

/-- For topics none of whose levels is `*`, the matcher computes the declared relation. -/
theorem topicMatchesPattern_iff (topic pattern : Bytes)
    (plain : starLevel ∉ topic.splitOn slash) :
    ∃ verdict, topicMatchesPattern topic pattern = some verdict ∧
      (verdict = true ↔ LevelsMatch (topic.splitOn slash) (pattern.splitOn slash)) := by
  obtain ⟨verdict, returned⟩ := topicMatchesPattern_returns topic pattern
  refine ⟨verdict, returned, ?_⟩
  rw [← splitParts_eq] at plain
  have halts := matchLoop_halts _ _ (start_inBounds _ _) (fun star _ => plain star) verdict returned
  rw [levelsMatch_iff, ← splitParts_eq, ← splitParts_eq]
  exact Glob.halts_iff_matches _ _ verdict halts

/-- For patterns none of whose levels is `*`, it does so on every topic. -/
theorem topicMatchesPattern_starless (topic pattern : Bytes)
    (plain : starLevel ∉ pattern.splitOn slash) (verdict : Bool)
    (returned : topicMatchesPattern topic pattern = some verdict) :
    verdict = true ↔ LevelsMatch (topic.splitOn slash) (pattern.splitOn slash) := by
  rw [← splitParts_eq] at plain
  have halts := matchLoop_halts _ _ (start_inBounds _ _) (fun _ => plain) verdict returned
  rw [levelsMatch_iff, ← splitParts_eq, ← splitParts_eq]
  exact Glob.halts_iff_matches _ _ verdict halts

/-- `upb/a/b` under `+/*/b`, with a star that has to take one level. -/
theorem topicMatchesPattern_compound :
    ∃ verdict, topicMatchesPattern (ascii "upb/a/b") (ascii "+/*/b") = some verdict ∧
      (verdict = true ↔
        LevelsMatch ((ascii "upb/a/b").splitOn slash) ((ascii "+/*/b").splitOn slash)) :=
  topicMatchesPattern_iff (ascii "upb/a/b") (ascii "+/*/b") (by decide)

end PubSub.Properties
