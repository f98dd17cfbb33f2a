import PubSub.Properties.Matching
import PubSub.Properties.Accounts

/-!
# The documented wildcards

A level `*` of a topic confuses the matcher, but never into a match that the documented
relation does not have. Together with the server as a broker, this says who gets what
in the terms of the documentation.
-/
namespace PubSub.Properties

open General Std

/-- The documented relation between topics and patterns. -/
def Documented (topic pattern : Bytes) : Prop :=
  LevelsMatch (topic.splitOn slash) (pattern.splitOn slash)

/-! ## Every match is a documented one -/

section

variable (topicParts patternParts : List Bytes)

/-- A match of what is left at these indices is a match of everything. -/
def Leads (tIdx pIdx : Nat) : Prop :=
  Glob.Matches ((patternParts.drop pIdx).map wildOf) (topicParts.drop tIdx) →
    Glob.Matches (patternParts.map wildOf) topicParts

/-- The loop stands where it leads to a match, and so does every place to fall back to. -/
structure Leading (c : Cursor) : Prop where
  here : Leads topicParts patternParts c.tIdx c.pIdx
  back : c.backtrack = true → ∀ t, c.tBack ≤ t → Leads topicParts patternParts t (c.pBack + 1)

variable {topicParts patternParts}

theorem Leading.start : Leading topicParts patternParts .start := by
  constructor
  · exact fun found => found
  · intro back
    cases back

/-- A pattern level that takes exactly this level of the topic. -/
theorem Leads.advance {tIdx pIdx : Nat} {p t : Bytes} (leads : Leads topicParts patternParts tIdx pIdx)
    (hp : patternParts[pIdx]? = some p) (ht : topicParts[tIdx]? = some t)
    (fits : p = plusLevel ∨ p = t) : Leads topicParts patternParts (tIdx + 1) (pIdx + 1) := by
  intro found
  apply leads
  rw [drop_of_getElem? hp, drop_of_getElem? ht, List.map_cons]
  rcases fits with rfl | rfl
  · exact .one found
  · -- Equal levels: the pattern's may still be a wildcard, which takes this one level.
    cases wild : wildOf p with
    | one => exact .one found
    | many => exact .many [p] found
    | lit letter =>
      simp only [wildOf] at wild
      split_ifs at wild
      cases wild
      exact .lit found

/-- A star may skip any number of levels. -/
theorem Leads.star {tIdx pIdx : Nat} (leads : Leads topicParts patternParts tIdx pIdx)
    (hp : patternParts[pIdx]? = some starLevel) (t : Nat) (later : tIdx ≤ t) :
    Leads topicParts patternParts t (pIdx + 1) := by
  intro found
  apply leads
  rw [drop_of_getElem? hp, List.map_cons, (wildOf_many_iff _).mpr rfl, Glob.matches_many_iff]
  refine ⟨_, ?_, found⟩
  obtain ⟨more, rfl⟩ := Nat.exists_eq_add_of_le later
  rw [← List.drop_drop]
  exact List.drop_suffix _ _

theorem Leading.round {c d : Cursor} (leading : Leading topicParts patternParts c)
    (round : Round topicParts patternParts c (.next d)) : Leading topicParts patternParts d := by
  cases round with
  | advance hp ht fits => exact ⟨leading.here.advance hp ht fits, leading.back⟩
  | star hp ht other =>
    exact ⟨leading.here.star hp _ (Nat.le_refl _), fun _ => leading.here.star hp⟩
  | fallBack ht stuck back =>
    have further := leading.back back
    exact ⟨further _ (Nat.le_succ _), fun _ t later => further t (Nat.le_of_succ_le later)⟩

theorem matchLoop_sound (fuel : Nat) (c : Cursor) (bounds : InBounds topicParts patternParts c)
    (leading : Leading topicParts patternParts c)
    (accepted : matchLoop topicParts patternParts fuel c = some true) :
    Glob.Matches (patternParts.map wildOf) topicParts := by
  induction fuel generalizing c with
  | zero => cases accepted
  | succ fuel ih =>
    have round := iterate_round c bounds
    simp only [matchLoop] at accepted
    generalize c.iterate topicParts patternParts = result at round accepted
    cases result with
    | next d => exact ih d (round_inBounds c d bounds round) (leading.round round) accepted
    | leave =>
      -- The topic is used up, and only stars are left of the pattern.
      simp only [Option.some.injEq, Cursor.finish, decide_eq_true_eq, List.dropWhile_eq_nil_iff] at accepted
      apply leading.here
      rw [accepted.1, List.drop_length, Glob.matches_nil_text_iff, List.forall_mem_map]
      exact fun level member => (wildOf_many_iff level).mpr (accepted.2 level member)
    | «return» verdict =>
      cases accepted
      cases round
    | outOfBounds => cases accepted

end

theorem covers_documented (topic pattern : Bytes) (covered : Covers topic pattern) :
    Documented topic pattern := by
  rw [Documented, levelsMatch_iff, ← splitParts_eq, ← splitParts_eq]
  exact matchLoop_sound _ _ (start_inBounds _ _) .start covered

/-- Where topic and pattern do not both have a level `*`, the matcher misses nothing either. -/
theorem covers_iff_documented (topic pattern : Bytes)
    (plain : starLevel ∈ topic.splitOn slash → starLevel ∉ pattern.splitOn slash) :
    Covers topic pattern ↔ Documented topic pattern := by
  obtain ⟨verdict, returned⟩ := topicMatchesPattern_returns topic pattern
  have decided : verdict = true ↔ Documented topic pattern := by
    rw [← splitParts_eq, ← splitParts_eq] at plain
    have halts := matchLoop_halts _ _ (start_inBounds _ _) plain verdict returned
    rw [Documented, levelsMatch_iff, ← splitParts_eq, ← splitParts_eq]
    exact Glob.halts_iff_matches _ _ verdict halts
  rw [Covers, returned, Option.some.injEq, decided]

end PubSub.Properties
