import PubSub.General.Runs

/-!
# Refinement between transition systems

A system refines another one along a function on its states: each of its steps is a
step of the other system, or leaves the image as it is.
-/
namespace PubSub.General

variable {σ ε τ δ : Type}

structure Refinement (S : System σ ε) (T : System τ δ) where
  image : σ → τ
  /-- The event that a step amounts to; none is a step that the other system does not see. -/
  label : σ → ε → Option δ
  start : image S.start = T.start
  seen : ∀ past s e t d, S.Run past s → S.enabled s e → S.step s e = some t → label s e = some d →
    T.enabled (image s) d ∧ T.step (image s) d = some (image t)
  unseen : ∀ past s e t, S.Run past s → S.enabled s e → S.step s e = some t → label s e = none →
    image t = image s

namespace Refinement

variable {S : System σ ε} {T : System τ δ} (R : Refinement S T)

/-- A step as the other system sees it. -/
def project (x : Transition σ ε) : Option (Transition τ δ) :=
  (R.label x.before x.event).map fun d => ⟨R.image x.before, d, R.image x.after⟩

def trace (past : List (Transition σ ε)) : List (Transition τ δ) := past.filterMap R.project

theorem trace_snoc (past : List (Transition σ ε)) (x : Transition σ ε) :
    R.trace (past ++ [x]) = R.trace past ++ (R.project x).toList := by
  rw [trace, List.filterMap_append]
  cases seen : R.project x <;> simp [trace, seen]

theorem trace_seen {past : List (Transition σ ε)} {s t : σ} {e : ε} {d : δ}
    (seen : R.label s e = some d) :
    R.trace (past ++ [⟨s, e, t⟩]) = R.trace past ++ [⟨R.image s, d, R.image t⟩] := by
  rw [trace_snoc, project, seen]
  rfl

theorem trace_unseen {past : List (Transition σ ε)} {s t : σ} {e : ε} (unseen : R.label s e = none) :
    R.trace (past ++ [⟨s, e, t⟩]) = R.trace past := by
  rw [trace_snoc, project, unseen]
  simp

/-- Every run is a run of the other system. -/
theorem run {past : List (Transition σ ε)} {s : σ} (run : S.Run past s) :
    T.Run (R.trace past) (R.image s) := by
  induction run with
  | start =>
    rw [R.start]
    exact .start
  | @next past s e t run enabled stepped ih =>
    cases label : R.label s e with
    | none =>
      rw [R.trace_unseen label, R.unseen past s e t run enabled stepped label]
      exact ih
    | some d =>
      obtain ⟨enabled', stepped'⟩ := R.seen past s e t d run enabled stepped label
      rw [R.trace_seen label]
      exact ih.next enabled' stepped'

end Refinement

end PubSub.General
