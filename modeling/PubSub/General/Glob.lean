import Mathlib.Data.List.Infix
import Mathlib.Data.List.TakeDrop

/-!
# Patterns with a one-letter and a many-letter wildcard

The declared meaning of a pattern is the relation `Matches`. The greedy scan
walks text and pattern together and remembers only the last many-letter wildcard
it passed. It is nevertheless complete: what an earlier wildcard could still
achieve, the last one achieves too (`step_promises`).
-/
namespace PubSub.General

/-- One position of a pattern over the alphabet `α`. -/
inductive Wild (α : Type) where
  | one
  | many
  | lit (letter : α)
  deriving DecidableEq, Repr

namespace Glob

variable {α : Type}

/-- The declared meaning of a pattern, independent of any search. -/
inductive Matches : List (Wild α) → List α → Prop
  | nil : Matches [] []
  | one {letter pattern text} : Matches pattern text → Matches (.one :: pattern) (letter :: text)
  | many {pattern text} (skipped : List α) :
      Matches pattern text → Matches (.many :: pattern) (skipped ++ text)
  | lit {letter pattern text} :
      Matches pattern text → Matches (.lit letter :: pattern) (letter :: text)

@[simp] theorem matches_nil_iff (text : List α) : Matches [] text ↔ text = [] := by
  constructor
  · intro h; cases h; rfl
  · rintro rfl; exact .nil

@[simp] theorem matches_one_cons (pattern : List (Wild α)) (letter : α) (text : List α) :
    Matches (.one :: pattern) (letter :: text) ↔ Matches pattern text := by
  constructor
  · intro h; cases h; assumption
  · exact .one

@[simp] theorem matches_lit_cons (pattern : List (Wild α)) (x y : α) (text : List α) :
    Matches (.lit y :: pattern) (x :: text) ↔ y = x ∧ Matches pattern text := by
  constructor
  · intro h; cases h; exact ⟨rfl, by assumption⟩
  · rintro ⟨rfl, h⟩; exact .lit h

/-- A many-letter wildcard hands some suffix of the text to the rest of the pattern. -/
theorem matches_many_iff (pattern : List (Wild α)) (text : List α) :
    Matches (.many :: pattern) text ↔ ∃ rest, rest <:+ text ∧ Matches pattern rest := by
  constructor
  · intro h
    cases h with
    | many skipped h => exact ⟨_, List.suffix_append _ _, h⟩
  · rintro ⟨rest, ⟨skipped, rfl⟩, h⟩
    exact .many skipped h

theorem matches_nil_text_iff (pattern : List (Wild α)) :
    Matches pattern [] ↔ ∀ w ∈ pattern, w = .many := by
  induction pattern with
  | nil => simp
  | cons w pattern ih =>
    cases w with
    | one => simp only [List.mem_cons, forall_eq_or_imp, reduceCtorEq, false_and, iff_false]
             intro h; cases h
    | lit letter =>
      simp only [List.mem_cons, forall_eq_or_imp, reduceCtorEq, false_and, iff_false]
      intro h; cases h
    | many => simp [matches_many_iff, List.suffix_nil, ih]

/-- Positions other than the many-letter wildcard take exactly one letter each. -/
theorem matches_append_drop (before pattern : List (Wild α)) (text : List α)
    (free : ∀ w ∈ before, w ≠ .many) (h : Matches (before ++ pattern) text) :
    before.length ≤ text.length ∧ Matches pattern (text.drop before.length) := by
  induction before generalizing text with
  | nil => exact ⟨Nat.zero_le _, h⟩
  | cons w before ih =>
    have free' : ∀ w ∈ before, w ≠ .many := fun w member => free w (by simp [member])
    cases h with
    | many => exact absurd rfl (free .many (by simp))
    | one h =>
      obtain ⟨bound, rest⟩ := ih _ free' h
      exact ⟨by simpa using bound, by simpa using rest⟩
    | lit h =>
      obtain ⟨bound, rest⟩ := ih _ free' h
      exact ⟨by simpa using bound, by simpa using rest⟩

/-- What is left to match, and the place to fall back to: the pattern behind the
last many-letter wildcard and the text it was last tried on. -/
structure Scan (α : Type) where
  pattern : List (Wild α)
  text : List α
  saved : Option (List (Wild α) × List α)

/-- Fall back: the last wildcard takes one letter more. -/
def retry : Option (List (Wild α) × List α) → Scan α ⊕ Bool
  | some (pattern, _ :: text) => .inl ⟨pattern, text, some (pattern, text)⟩
  | _ => .inr false

/-- One step of the greedy scan: a next position or a verdict. -/
def step [DecidableEq α] (s : Scan α) : Scan α ⊕ Bool :=
  match s.text, s.pattern with
  | [], pattern => .inr (pattern.all (· = .many))
  | _ :: text, .one :: pattern => .inl ⟨pattern, text, s.saved⟩
  | letter :: text, .many :: pattern =>
    .inl ⟨pattern, letter :: text, some (pattern, letter :: text)⟩
  | letter :: text, .lit wanted :: pattern =>
    if wanted = letter then .inl ⟨pattern, text, s.saved⟩ else retry s.saved
  | _ :: _, [] => retry s.saved

/-- Since the fall-back place was saved, one letter was taken for each pattern
position, none of them a many-letter wildcard. -/
def Anchored (s : Scan α) : Prop :=
  ∀ pattern text, s.saved = some (pattern, text) → ∃ passed taken,
    pattern = passed ++ s.pattern ∧ text = taken ++ s.text ∧ passed.length = taken.length ∧
      ∀ w ∈ passed, w ≠ .many

/-- A match is still within reach: from here, or after falling back. -/
def Promises (s : Scan α) : Prop :=
  Matches s.pattern s.text ∨ ∃ pattern text, s.saved = some (pattern, text) ∧
    ∃ rest, rest <:+ text ∧ rest ≠ text ∧ Matches pattern rest

/-- Ends with the verdict after finitely many steps. -/
inductive Halts [DecidableEq α] : Scan α → Bool → Prop
  | done {s verdict} : step s = .inr verdict → Halts s verdict
  | next {s t verdict} : step s = .inl t → Halts t verdict → Halts s verdict

private theorem anchored_advance (s : Scan α) (w : Wild α) (letter : α) (pattern : List (Wild α))
    (text : List α) (hp : s.pattern = w :: pattern) (ht : s.text = letter :: text)
    (single : w ≠ .many) (anchored : Anchored s) : Anchored ⟨pattern, text, s.saved⟩ := by
  intro savedPattern savedText saved
  obtain ⟨passed, taken, eqP, eqT, same, free⟩ := anchored savedPattern savedText saved
  -- The position and the letter just passed join those before.
  refine ⟨passed ++ [w], taken ++ [letter], ?_, ?_, by simp [same], ?_⟩
  · simp [eqP, hp]
  · simp [eqT, ht]
  · intro v member
    rcases List.mem_append.mp member with old | new
    · exact free v old
    · simp only [List.mem_singleton] at new
      exact new ▸ single

private theorem anchored_saved (pattern : List (Wild α)) (text : List α) :
    Anchored ⟨pattern, text, some (pattern, text)⟩ := by
  intro savedPattern savedText saved
  simp only [Option.some.injEq, Prod.mk.injEq] at saved
  exact ⟨[], [], by simp [saved.1], by simp [saved.2], rfl, by simp⟩

private theorem retry_anchored (saved : Option (List (Wild α) × List α)) (t : Scan α)
    (stepped : retry saved = .inl t) : Anchored t := by
  simp only [retry] at stepped
  split at stepped
  · cases stepped
    exact anchored_saved _ _
  · cases stepped

/-- A suffix other than the text itself is a suffix of the tail. -/
private theorem strict_suffix_cons (letter : α) (rest text : List α) :
    (rest <:+ letter :: text ∧ rest ≠ letter :: text) ↔ rest <:+ text := by
  rw [List.suffix_cons_iff]
  constructor
  · rintro ⟨rfl | tail, different⟩
    · exact absurd rfl different
    · exact tail
  · intro tail
    refine ⟨Or.inr tail, ?_⟩
    rintro rfl
    have bound := tail.length_le
    simp only [List.length_cons] at bound
    omega

private theorem suffix_split (rest text : List α) :
    rest <:+ text ↔ rest = text ∨ (rest <:+ text ∧ rest ≠ text) := by
  constructor
  · intro h
    by_cases same : rest = text
    · exact Or.inl same
    · exact Or.inr ⟨h, same⟩
  · rintro (rfl | h)
    · exact List.suffix_rfl
    · exact h.1

/-- When the scan is stuck, falling back loses nothing. -/
private theorem retry_promises (s t : Scan α)
    (stuck : ¬ Matches s.pattern s.text) (stepped : retry s.saved = .inl t) :
    Promises t ↔ Promises s := by
  simp only [retry] at stepped
  split at stepped
  next pattern letter text saved =>
    cases stepped
    simp only [Promises, saved, stuck, false_or, Option.some.injEq, Prod.mk.injEq]
    -- The retry tries the longest strict suffix and leaves the shorter ones to later.
    constructor
    · rintro (here | ⟨_, _, ⟨rfl, rfl⟩, rest, suffix, _, later⟩)
      · exact ⟨_, _, ⟨rfl, rfl⟩, text, (strict_suffix_cons letter text text).mpr List.suffix_rfl
          |>.1, by simp, here⟩
      · have moved := (strict_suffix_cons letter rest text).mpr suffix
        exact ⟨_, _, ⟨rfl, rfl⟩, rest, moved.1, moved.2, later⟩
    · rintro ⟨_, _, ⟨rfl, rfl⟩, rest, suffix, different, later⟩
      have moved := (strict_suffix_cons letter rest text).mp ⟨suffix, different⟩
      rcases (suffix_split rest text).mp moved with rfl | strict
      · exact Or.inl later
      · exact Or.inr ⟨_, _, ⟨rfl, rfl⟩, rest, strict.1, strict.2, later⟩
  · cases stepped

/-- When the scan is stuck with nowhere to fall back to, no match is left. -/
private theorem retry_verdict (s : Scan α) (verdict : Bool) (anchored : Anchored s)
    (nonempty : s.text ≠ []) (stuck : ¬ Matches s.pattern s.text)
    (stepped : retry s.saved = .inr verdict) : verdict = true ↔ Promises s := by
  simp only [retry] at stepped
  split at stepped
  · cases stepped
  next none =>
    cases stepped
    simp only [Bool.false_eq_true, Promises, stuck, false_or, false_iff]
    rintro ⟨pattern, text, saved, -⟩
    obtain ⟨_, taken, _, eqT, _, _⟩ := anchored pattern text saved
    -- The saved text contains the current one, which is not used up.
    cases text with
    | nil => exact nonempty (List.append_eq_nil_iff.mp eqT.symm).2
    | cons letter text => exact none pattern letter text saved

/-- The exchange argument. A new many-letter wildcard makes the earlier place to
fall back to superfluous: whatever suffix the earlier one could have matched
further on contains a suffix the new one matches too. -/
private theorem many_promises (s : Scan α) (pattern : List (Wild α))
    (hp : s.pattern = .many :: pattern) (anchored : Anchored s) :
    Promises ⟨pattern, s.text, some (pattern, s.text)⟩ ↔ Promises s := by
  have here : Matches s.pattern s.text ↔ ∃ rest, rest <:+ s.text ∧ Matches pattern rest := by
    rw [hp, matches_many_iff]
  have fresh : Promises ⟨pattern, s.text, some (pattern, s.text)⟩ ↔
      ∃ rest, rest <:+ s.text ∧ Matches pattern rest := by
    simp only [Promises, Option.some.injEq, Prod.mk.injEq]
    constructor
    · rintro (now | ⟨_, _, ⟨rfl, rfl⟩, rest, suffix, _, later⟩)
      · exact ⟨_, List.suffix_rfl, now⟩
      · exact ⟨rest, suffix, later⟩
    · rintro ⟨rest, suffix, found⟩
      rcases (suffix_split rest s.text).mp suffix with rfl | strict
      · exact Or.inl found
      · exact Or.inr ⟨_, _, ⟨rfl, rfl⟩, rest, strict.1, strict.2, found⟩
  rw [fresh, Promises, here]
  constructor
  · exact Or.inl
  · rintro (now | ⟨savedPattern, savedText, saved, rest, suffix, _, later⟩)
    · exact now
    · obtain ⟨passed, taken, rfl, rfl, same, free⟩ := anchored savedPattern savedText saved
      -- The positions passed since then take their letters; the rest of the suffix is left.
      obtain ⟨long, tail⟩ := matches_append_drop passed s.pattern rest free later
      have inner : rest.drop passed.length <:+ s.text := by
        have dropped : rest.drop passed.length <:+ taken ++ s.text :=
          (List.drop_suffix _ _).trans suffix
        apply List.suffix_of_suffix_length_le dropped (List.suffix_append taken s.text)
        have bound := suffix.length_le
        simp only [List.length_append, List.length_drop] at bound ⊢
        omega
      rw [hp, matches_many_iff] at tail
      obtain ⟨last, lastSuffix, found⟩ := tail
      exact ⟨last, lastSuffix.trans inner, found⟩

/-- Once the text is used up, falling back cannot help: the pattern behind the
saved wildcard needs at least the letters taken since. -/
private theorem end_promises (s : Scan α) (ht : s.text = []) (anchored : Anchored s) :
    Promises s ↔ ∀ w ∈ s.pattern, w = .many := by
  rw [Promises, ht, matches_nil_text_iff]
  constructor
  · rintro (now | ⟨savedPattern, savedText, saved, rest, suffix, different, later⟩)
    · exact now
    · obtain ⟨passed, taken, rfl, rfl, same, free⟩ := anchored savedPattern savedText saved
      obtain ⟨long, _⟩ := matches_append_drop passed s.pattern rest free later
      -- A strictly shorter suffix has too few letters for them.
      rw [ht, List.append_nil] at suffix different
      exact absurd (suffix.eq_of_length_le (by omega)) different
  · exact Or.inl

variable [DecidableEq α]

theorem step_anchored (s t : Scan α) (stepped : step s = .inl t) (anchored : Anchored s) :
    Anchored t := by
  simp only [step] at stepped
  -- A letter is taken, a new place is saved, or the saved one moves on by a letter.
  split at stepped
  · cases stepped
  next ht hp =>
    cases stepped
    exact anchored_advance s _ _ _ _ hp ht (by simp) anchored
  · cases stepped
    exact anchored_saved _ _
  next ht hp =>
    split at stepped
    · cases stepped
      exact anchored_advance s _ _ _ _ hp ht (by simp) anchored
    · exact retry_anchored _ _ stepped
  · exact retry_anchored _ _ stepped

/-- No step of the scan gains or loses a match. -/
theorem step_promises (s t : Scan α) (stepped : step s = .inl t) (anchored : Anchored s) :
    Promises t ↔ Promises s := by
  simp only [step] at stepped
  split at stepped
  · cases stepped
  next ht hp =>
    cases stepped
    simp only [Promises, ht, hp, matches_one_cons]
  next ht hp =>
    cases stepped
    rw [← ht]
    exact many_promises s _ hp anchored
  next letter text wanted pattern ht hp =>
    split at stepped
    next equal =>
      cases stepped
      simp only [Promises, ht, hp, matches_lit_cons, equal, true_and]
    next different =>
      refine retry_promises s t ?_ stepped
      simp [ht, hp, different]
  next ht hp =>
    refine retry_promises s t ?_ stepped
    simp [ht, hp]

theorem step_verdict (s : Scan α) (verdict : Bool) (stepped : step s = .inr verdict)
    (anchored : Anchored s) : verdict = true ↔ Promises s := by
  simp only [step] at stepped
  split at stepped
  next ht =>
    cases stepped
    rw [end_promises s ht anchored]
    simp
  · cases stepped
  · cases stepped
  next letter text wanted pattern ht hp =>
    split at stepped
    · cases stepped
    next different =>
      refine retry_verdict s verdict anchored (by simp [ht]) ?_ stepped
      simp [ht, hp, different]
  next ht hp =>
    refine retry_verdict s verdict anchored (by simp [ht]) ?_ stepped
    simp [ht, hp]

theorem halts_iff_promises (s : Scan α) (verdict : Bool) (halts : Halts s verdict)
    (anchored : Anchored s) : verdict = true ↔ Promises s := by
  induction halts with
  | done stepped => exact step_verdict _ _ stepped anchored
  | next stepped _ ih =>
    -- The anchor is what carries over from step to step.
    rw [ih (step_anchored _ _ stepped anchored)]
    exact step_promises _ _ stepped anchored

/-- The greedy scan decides the declared meaning. -/
theorem halts_iff_matches (pattern : List (Wild α)) (text : List α) (verdict : Bool)
    (halts : Halts ⟨pattern, text, none⟩ verdict) : verdict = true ↔ Matches pattern text := by
  -- At the start nothing is saved: the only promise is a match from here.
  rw [halts_iff_promises _ _ halts (by intro _ _ saved; cases saved)]
  simp [Promises]

end Glob

end PubSub.General
