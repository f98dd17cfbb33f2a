import PubSub.Properties.Commands
import PubSub.Properties.Reception

/-!
# What a user sees

Two things are written to the standard output of a subscriber: what it says to the commands
it has read, and a line for every message. Either comes in its own order.
-/
namespace PubSub.Properties

open General

/-! ## The texts -/

/-- What `process_user_command` prints for a line. -/
def answerFor (id line : Bytes) : Bytes := ((handleUserInput line id).map CommandResult.printed).getD []

/-- What `parse_input` prints for a body. -/
def textFor (rt : RealText) (body : Bytes) : Bytes := (parseInput rt body).getD []

section

variable {rt : RealText} {n n' : Node} {lines : List Bytes}

theorem message_grows (looks : Bool) (v : View) : v.parsed <+: (v.message looks).parsed := by
  unfold View.message View.control View.data View.text
  dsimp only
  split_ifs <;> simp [View.cutOff, View.parse]

/-- What a message adds to the output is what it adds to the parsed bodies. -/
theorem message_prints (rt : RealText) (n : Node) (arrivals : Nat → Option Nat) :
    ∃ more, (n.message rt arrivals).process.parsed = n.process.parsed ++ more ∧
      (n.message rt arrivals).process.printed = n.process.printed ++ more.map (textFor rt) := by
  obtain ⟨c, read, view⟩ := message_view rt n arrivals
  have grows := message_grows (looksControl (n.incoming arrivals))
    ⟨n.down, decide (n.link = .shut), n.process.parsed, n.process.status⟩
  rw [← view] at grows
  obtain ⟨more, split⟩ := grows
  have split : c.parsed = n.process.parsed ++ more := split.symm
  refine ⟨more, ?_, ?_⟩
  · rw [read]
    exact split
  · have printed : (n.message rt arrivals).process.printed =
        n.process.printed ++ (c.parsed.drop n.process.parsed.length).map (textFor rt) := by
      rw [read]
      rfl
    rw [printed, split, List.drop_left]

/-- The output so far, for the lines and the messages so far. -/
def Shown (rt : RealText) (lines : List Bytes) (p : Process) : Prop :=
  Woven (lines.map (answerFor p.id)) (p.parsed.map (textFor rt)) p.printed

theorem Shown.move {e : NodeEvent} (shown : Shown rt lines n.process) (moved : n.step rt e = some n') :
    Shown rt (lines ++ (typedLine e).toList) n'.process := by
  have quiet : ∀ p : Process, p.id = n.process.id → p.parsed = n.process.parsed →
      p.printed = n.process.printed → Shown rt (lines ++ []) p := by
    intro p id parsed printed
    rw [Shown, List.append_nil, id, parsed, printed]
    exact shown
  cases e with
  | poll input socket =>
    cases moved
    exact quiet _ rfl rfl rfl
  | input line =>
    simp only [Node.step] at moved
    split at moved
    next ready phase =>
      cases line with
      | none =>
        cases moved
        exact quiet _ (by simp) (by simp) (by cases ready <;> rfl)
      | some line =>
        simp only [Node.input, Option.bind_eq_bind, Option.bind_eq_some_iff] at moved
        obtain ⟨result, handled, moved⟩ := moved
        cases moved
        have answer : answerFor n.process.id line = result.printed := by
          rw [answerFor, handled]
          rfl
        have printed : ((n.process.obey result).next ready).printed =
            n.process.printed ++ [result.printed] := by cases ready <;> rfl
        have woven := shown.left (answerFor n.process.id line)
        rw [answer, ← printed] at woven
        simpa [Shown, typedLine, answer] using woven
    · cases moved
    · cases moved
    · cases moved
  | message arrivals =>
    cases moved
    obtain ⟨more, parsed, printed⟩ := message_prints rt n arrivals
    have same : (n.message rt arrivals).process.id = n.process.id := by simp [Node.message]
    rw [Shown, same, parsed, printed, List.map_append]
    simpa [typedLine] using Woven.append_right shown (more.map (textFor rt))
  | quit =>
    cases moved
    exact quiet _ rfl rfl rfl
  | cut kept =>
    cases moved
    exact quiet _ rfl rfl rfl

end

/-! ## Every run -/

section

variable {rt : RealText} {udpFd tcpListenFd : Fd} {past : NetworkHistory} {net : Network}

end

end PubSub.Properties
