import Mathlib.Data.List.Basic

/-!
# Runs of a transition system

A run keeps its whole history, so that a property of a state can refer to what
has happened on the way there.
-/
namespace PubSub.General

structure System (σ ε : Type) where
  start : σ
  enabled : σ → ε → Prop
  /-- None is a step that goes wrong. -/
  step : σ → ε → Option σ

structure Transition (σ ε : Type) where
  before : σ
  event : ε
  after : σ

namespace System

variable {σ ε : Type} (S : System σ ε)

/-- The histories of the system, with the state each one leads to. -/
inductive Run : List (Transition σ ε) → σ → Prop
  | start : Run [] S.start
  | next {past s e t} : Run past s → S.enabled s e → S.step s e = some t →
      Run (past ++ [⟨s, e, t⟩]) t

variable {S}

/-- A property of history and state that holds at the start and survives each step. -/
theorem Run.invariant {P : List (Transition σ ε) → σ → Prop} (initial : P [] S.start)
    (preserved : ∀ past s e t, S.Run past s → P past s → S.enabled s e → S.step s e = some t →
      P (past ++ [⟨s, e, t⟩]) t)
    {past : List (Transition σ ε)} {s : σ} (run : S.Run past s) : P past s := by
  induction run with
  | start => exact initial
  | next run enabled stepped ih => exact preserved _ _ _ _ run ih enabled stepped

theorem Run.state_invariant {P : σ → Prop} (initial : P S.start)
    (preserved : ∀ s e t, P s → S.enabled s e → S.step s e = some t → P t)
    {past : List (Transition σ ε)} {s : σ} (run : S.Run past s) : P s :=
  run.invariant (P := fun _ s => P s) initial
    (fun _ s e t _ holds enabled stepped => preserved s e t holds enabled stepped)

/-- The run seen from its last step. -/
theorem Run.last {past : List (Transition σ ε)} {x : Transition σ ε} {s : σ}
    (run : S.Run (past ++ [x]) s) :
    x.after = s ∧ S.Run past x.before ∧ S.enabled x.before x.event ∧
      S.step x.before x.event = some x.after := by
  generalize full : past ++ [x] = all at run
  cases run with
  | start => simp at full
  | next run enabled stepped =>
    obtain ⟨rfl, rfl⟩ := List.append_singleton_inj.mp full
    exact ⟨rfl, run, enabled, stepped⟩

variable (S) in
/-- Play a list of events behind a history, checking that each is enabled. -/
def replay [∀ s e, Decidable (S.enabled s e)] (past : List (Transition σ ε)) (s : σ) :
    List ε → Option (List (Transition σ ε) × σ)
  | [] => some (past, s)
  | e :: events =>
    if S.enabled s e then
      match S.step s e with
      | some t => replay (past ++ [⟨s, e, t⟩]) t events
      | none => none
    else none

theorem run_of_replay [∀ s e, Decidable (S.enabled s e)] (events : List ε)
    (past all : List (Transition σ ε)) (s t : σ) (run : S.Run past s)
    (played : S.replay past s events = some (all, t)) : S.Run all t := by
  induction events generalizing past s with
  | nil =>
    simp only [replay, Option.some.injEq, Prod.mk.injEq] at played
    rw [← played.1, ← played.2]
    exact run
  | cons e events ih =>
    simp only [replay] at played
    split at played
    next enabled =>
      split at played
      next u stepped => exact ih _ _ (run.next enabled stepped) played
      · cases played
    · cases played

/-- A list of events that can be played leads to a run. -/
theorem exists_run [∀ s e, Decidable (S.enabled s e)] (events : List ε)
    (check : List (Transition σ ε) → σ → Bool)
    (passes : (S.replay [] S.start events).any (fun r => check r.1 r.2) = true) :
    ∃ past s, S.Run past s ∧ check past s = true := by
  cases played : S.replay [] S.start events with
  | none => simp [played] at passes
  | some result =>
    obtain ⟨past, s⟩ := result
    rw [played] at passes
    exact ⟨past, s, run_of_replay events [] past S.start s .start played, passes⟩

end System

/-! ## Properties of all steps -/

section

variable {σ ε : Type}

/-- Every step of a history, together with the history in front of it. -/
def AlongFrom (Q : List (Transition σ ε) → Transition σ ε → Prop) :
    List (Transition σ ε) → List (Transition σ ε) → Prop
  | _, [] => True
  | seen, x :: rest => Q seen x ∧ AlongFrom Q (seen ++ [x]) rest

abbrev Along (Q : List (Transition σ ε) → Transition σ ε → Prop) (past : List (Transition σ ε)) : Prop :=
  AlongFrom Q [] past

variable {Q : List (Transition σ ε) → Transition σ ε → Prop}

instance AlongFrom.decidable [∀ seen x, Decidable (Q seen x)] :
    ∀ seen past, Decidable (AlongFrom Q seen past)
  | _, [] => inferInstanceAs (Decidable True)
  | seen, x :: rest =>
    have := AlongFrom.decidable (seen ++ [x]) rest
    inferInstanceAs (Decidable (Q seen x ∧ AlongFrom Q (seen ++ [x]) rest))

theorem alongFrom_snoc (seen past : List (Transition σ ε)) (x : Transition σ ε) :
    AlongFrom Q seen (past ++ [x]) ↔ AlongFrom Q seen past ∧ Q (seen ++ past) x := by
  induction past generalizing seen with
  | nil => simp [AlongFrom]
  | cons y past ih => simp [AlongFrom, ih, and_assoc]

theorem along_snoc (past : List (Transition σ ε)) (x : Transition σ ε) :
    Along Q (past ++ [x]) ↔ Along Q past ∧ Q past x :=
  alongFrom_snoc [] past x

end

/-! ## What a history amounts to -/

section

variable {σ ε δ : Type} (f : List (Transition σ ε) → Transition σ ε → Option δ)

/-- What the steps of a history amount to, each of them seen behind the history in front of it. -/
def gatherFrom : List (Transition σ ε) → List (Transition σ ε) → List δ
  | _, [] => []
  | seen, x :: rest => (f seen x).toList ++ gatherFrom (seen ++ [x]) rest

abbrev gather (past : List (Transition σ ε)) : List δ := gatherFrom f [] past

theorem gatherFrom_snoc (seen past : List (Transition σ ε)) (x : Transition σ ε) :
    gatherFrom f seen (past ++ [x]) = gatherFrom f seen past ++ (f (seen ++ past) x).toList := by
  induction past generalizing seen with
  | nil => simp [gatherFrom]
  | cons y past ih => simp [gatherFrom, ih]

theorem gather_snoc (past : List (Transition σ ε)) (x : Transition σ ε) :
    gather f (past ++ [x]) = gather f past ++ (f past x).toList :=
  gatherFrom_snoc f [] past x

end

/-! ## Loops that may fail -/

/-- A loop over a list gets through and keeps what its body keeps, where the
property may refer to the elements seen so far. -/
theorem foldlM_keeps {α β : Type} (body : β → α → Option β) (P : List α → β → Prop) (xs seen : List α)
    (b : β) (initial : P seen b)
    (preserved : ∀ seen b, ∀ x ∈ xs, P seen b → ∃ b', body b x = some b' ∧ P (seen ++ [x]) b') :
    ∃ b', xs.foldlM body b = some b' ∧ P (seen ++ xs) b' := by
  induction xs generalizing seen b with
  | nil => exact ⟨b, rfl, by simpa using initial⟩
  | cons x xs ih =>
    -- The first element moves over to those that have been seen.
    obtain ⟨middle, first, kept⟩ := preserved seen b x (by simp) initial
    obtain ⟨last, rest, holds⟩ := ih (seen ++ [x]) middle kept
      (fun seen b y member => preserved seen b y (List.mem_cons_of_mem x member))
    refine ⟨last, ?_, by simpa using holds⟩
    rw [List.foldlM_cons, first]
    exact rest

/-- A change of state that the body commutes with can be made in front of the loop. -/
theorem foldlM_commutes {α β : Type} (body : β → α → Option β) (f : β → β)
    (commutes : ∀ b x, body (f b) x = (body b x).map f) (xs : List α) (b : β) :
    xs.foldlM body (f b) = (xs.foldlM body b).map f := by
  induction xs generalizing b with
  | nil => rfl
  | cons x xs ih =>
    rw [List.foldlM_cons, List.foldlM_cons, commutes]
    cases body b x with
    | none => rfl
    | some b' => exact ih b'

/-- A loop that gets through has kept what each round of its body keeps. -/
theorem foldlM_preserves {α β : Type} (body : β → α → Option β) (P : β → Prop)
    (preserved : ∀ b x b', P b → body b x = some b' → P b') (xs : List α) (b b' : β) (initial : P b)
    (done : xs.foldlM body b = some b') : P b' := by
  induction xs generalizing b with
  | nil =>
    cases done
    exact initial
  | cons x xs ih =>
    rw [List.foldlM_cons, Option.bind_eq_bind, Option.bind_eq_some_iff] at done
    obtain ⟨middle, first, rest⟩ := done
    exact ih middle (preserved b x middle initial first) rest

end PubSub.General
