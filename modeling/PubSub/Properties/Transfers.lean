import PubSub.Common.Transfer
import Mathlib.Data.List.Forall2

/-!
# What one end sends, the other receives

Neither loop knows how much a system call will take or hand over. What `send_all` has
been given and what `recv_all` asks for decide alone what the calls return.
-/
namespace PubSub.Properties

open General

/-! ## One call -/

/-- Whatever arrives when, `recv_all` takes its own bytes out of the stream and no others. -/
structure OwnBytes (len : Nat) (sock : Incoming) : Prop where
  returned : (recvAll len sock).returned =
    if len ≤ sock.pending.length then some len else if sock.closed then some 0 else none
  handed : (recvAll len sock).handed =
    if len ≤ sock.pending.length then some (sock.pending.take len) else none
  left : (recvAll len sock).rest.pending = sock.pending.drop len
  closed : (recvAll len sock).rest.closed = sock.closed

theorem recvAll_ownBytes (len : Nat) (sock : Incoming) : OwnBytes len sock := by
  by_cases available : len ≤ sock.pending.length
  · obtain ⟨calls, filled⟩ := recvAll_filled len sock available
    have size : (sock.pending.take len).length = len := List.length_take_of_le available
    constructor <;> rw [filled]
    · rw [if_pos available, RecvAll.returned, size]
    · rw [if_pos available, RecvAll.handed]
    · rfl
    · rfl
  · -- The stream is used up: the call returns 0 at its end, or waits.
    obtain ⟨calls, short⟩ := recvAll_short len sock (Nat.lt_of_not_le available)
    have empty : sock.pending.drop len = [] := List.drop_eq_nil_of_le (by omega)
    constructor <;> rw [short]
    · rw [if_neg available]
      split <;> rfl
    · rw [if_neg available]
      split <;> rfl
    · rw [empty]
      split <;> exact List.drop_length
    · split <;> rfl

/-! ## One call after another -/

/-- `send_all` for each of these buffers: what the calls return, and the end behind them. -/
def sendEach : List Bytes → Outgoing → Option (List Nat × Outgoing)
  | [], sock => some ([], sock)
  | buffer :: buffers, sock => do
    let (returned, sock) ← sendAll buffer buffer.length sock
    let (others, sock) ← sendEach buffers sock
    some (returned :: others, sock)

/-- `recv_all` for each of these lengths. A call that does not return is the last one. -/
def recvEach : List Nat → Incoming → List RecvAll
  | [], _ => []
  | len :: lens, sock =>
    let call := recvAll len sock
    call :: if call.returned.isSome then recvEach lens call.rest else []

/-- `send` has accepted the buffers, one behind the other. -/
theorem sendEach_flatten (buffers : List Bytes) (sock : Outgoing) :
    ∃ calls, sendEach buffers sock =
      some (buffers.map List.length, sock.push calls buffers.flatten) := by
  induction buffers generalizing sock with
  | nil => exact ⟨0, by rw [List.flatten_nil, Outgoing.push_nil]; rfl⟩
  | cons buffer buffers ih =>
    obtain ⟨calls, sent⟩ := sendAll_total buffer buffer.length sock (Nat.le_refl _)
    obtain ⟨more, others⟩ := ih (sock.push calls (buffer.take buffer.length))
    refine ⟨more + calls, ?_⟩
    simp only [sendEach, sent, others, Option.bind_eq_bind, Option.bind_some]
    rw [Outgoing.push_push, List.take_length, List.flatten_cons, List.map_cons]

/-- What is due to calls of these lengths from a stream that ends behind these bytes. -/
def portions : List Nat → Bytes → List (Option Bytes)
  | [], _ => []
  | len :: lens, bytes =>
    (if len ≤ bytes.length then some (bytes.take len) else none) :: portions lens (bytes.drop len)

/-- The call hands over what is due and returns its length, or returns 0 if nothing is. -/
structure Returns (call : RecvAll) (due : Option Bytes) : Prop where
  handed : call.handed = due
  returned : call.returned = some (due.elim 0 List.length)

theorem recvAll_returns (len : Nat) (sock : Incoming)
    (ends : sock.closed = true ∨ len ≤ sock.pending.length) :
    Returns (recvAll len sock)
      (if len ≤ sock.pending.length then some (sock.pending.take len) else none) := by
  have own := recvAll_ownBytes len sock
  refine ⟨own.handed, ?_⟩
  rw [own.returned]
  split
  next available => rw [Option.elim_some, List.length_take_of_le available]
  next missing => rw [if_pos (ends.resolve_right missing), Option.elim_none]

/-- On a closed connection, or with all the bytes there, every call gets what is due to it. -/
theorem recvEach_portions (lens : List Nat) (sock : Incoming)
    (ends : sock.closed = true ∨ lens.sum ≤ sock.pending.length) :
    List.Forall₂ Returns (recvEach lens sock) (portions lens sock.pending) := by
  induction lens generalizing sock with
  | nil => exact .nil
  | cons len lens ih =>
    have own := recvAll_ownBytes len sock
    rw [List.sum_cons] at ends
    have returns := recvAll_returns len sock (ends.imp_right (by omega))
    rw [recvEach, portions, returns.returned, Option.isSome_some, if_pos rfl, ← own.left]
    apply List.Forall₂.cons returns
    apply ih
    rw [own.closed, own.left, List.length_drop]
    exact ends.imp_right (by omega)

/-! ## Portions of a stream of buffers -/

theorem portions_enough (buffer bytes : Bytes) (lens : List Nat) :
    portions (buffer.length :: lens) (buffer ++ bytes) = some buffer :: portions lens bytes := by
  rw [portions, if_pos (by simp), List.take_left, List.drop_left]

/-- A stream that ends too early is used up. -/
theorem portions_short (len : Nat) (lens : List Nat) (bytes : Bytes) (short : bytes.length < len) :
    portions (len :: lens) bytes = none :: portions lens [] := by
  rw [portions, if_neg (by omega), List.drop_eq_nil_of_le (by omega)]

/-- Everything is there: the portions are the buffers. -/
theorem portions_flatten (buffers : List Bytes) :
    portions (buffers.map List.length) buffers.flatten = buffers.map some := by
  induction buffers with
  | nil => rfl
  | cons buffer buffers ih =>
    rw [List.map_cons, List.flatten_cons, portions_enough, ih, List.map_cons]

/-- The buffers that are complete in front of `stop`. -/
def complete (buffers : List Bytes) (stop : Nat) : List (Option Bytes) :=
  buffers.mapIdx fun i buffer =>
    if (buffers.take (i + 1)).flatten.length ≤ stop then some buffer else none

theorem complete_cons (buffer : Bytes) (buffers : List Bytes) (stop : Nat) :
    complete (buffer :: buffers) stop = (if buffer.length ≤ stop then some buffer else none) ::
      buffers.mapIdx fun i other =>
        if buffer.length + (buffers.take (i + 1)).flatten.length ≤ stop then some other else none := by
  simp [complete, List.mapIdx_cons]

private theorem front_pos (buffers : List Bytes) (nonempty : ∀ buffer ∈ buffers, buffer ≠ []) (i : Nat)
    (inside : i < buffers.length) : 0 < (buffers.take (i + 1)).flatten.length := by
  cases buffers with
  | nil => cases inside
  | cons buffer buffers =>
    have first := List.length_pos_iff.mpr (nonempty buffer List.mem_cons_self)
    rw [List.take_succ_cons, List.flatten_cons, List.length_append]
    omega

/-- The stream ends somewhere: the portions are the buffers in front of its end. -/
theorem portions_complete (buffers : List Bytes) (stop : Nat)
    (nonempty : ∀ buffer ∈ buffers, buffer ≠ []) :
    portions (buffers.map List.length) (buffers.flatten.take stop) = complete buffers stop := by
  induction buffers generalizing stop with
  | nil => rfl
  | cons buffer buffers ih =>
    have others : ∀ other ∈ buffers, other ≠ [] := fun other member =>
      nonempty other (List.mem_cons_of_mem buffer member)
    rw [List.map_cons, List.flatten_cons, complete_cons, List.take_append]
    by_cases fits : buffer.length ≤ stop
    · rw [List.take_of_length_le fits, portions_enough, ih _ others, if_pos fits, complete]
      congr 1
      rw [List.mapIdx_eq_mapIdx_iff]
      intro i inside
      have front : (buffers.take (i + 1)).flatten.length ≤ stop - buffer.length ↔
          buffer.length + (buffers.take (i + 1)).flatten.length ≤ stop := by omega
      simp only [front]
    · -- The stream ends within this buffer, so nothing is left for the calls behind it.
      have short : (buffer.take stop).length < buffer.length := by
        rw [List.length_take]
        omega
      have nothing := ih 0 others
      rw [List.take_zero] at nothing
      rw [show stop - buffer.length = 0 by omega, List.take_zero, List.append_nil,
        portions_short _ _ _ short, nothing, if_neg fits, complete]
      congr 1
      rw [List.mapIdx_eq_mapIdx_iff]
      intro i inside
      have front := front_pos buffers others i inside
      rw [if_neg (by omega), if_neg (by omega)]

/-! ## Both ends -/

/-- What calls on the other end return for these buffers, once they have been sent. -/
structure Inverse (buffers : List Bytes) (out : Outgoing) (arrivals : Nat → Option Nat) : Prop where
  accepted : out.accepted = buffers.flatten
  /-- The buffers come back, whether the connection is closed behind them or not. -/
  received : ∀ closed, List.Forall₂ Returns
    (recvEach (buffers.map List.length) ⟨out.accepted, closed, arrivals⟩) (buffers.map some)
  /-- If the stream ends early, so do those in front of its end, and none behind it. -/
  cut : ∀ stop, List.Forall₂ Returns
    (recvEach (buffers.map List.length) ⟨out.accepted.take stop, true, arrivals⟩)
    (complete buffers stop)

/-- `send_all` and `recv_all` are inverse to one another, however much the system calls take
and hand over, and no call of `recv_all` touches the bytes of the next. -/
theorem transfers_inverse (buffers : List Bytes) (nonempty : ∀ buffer ∈ buffers, buffer ≠ [])
    (takes : Nat → Nat) (arrivals : Nat → Option Nat) :
    (∃ out, sendEach buffers ⟨[], takes⟩ = some (buffers.map List.length, out) ∧
      Inverse buffers out arrivals) ∧
    ∀ len sock, OwnBytes len sock := by
  refine ⟨?_, recvAll_ownBytes⟩
  obtain ⟨calls, sent⟩ := sendEach_flatten buffers ⟨[], takes⟩
  refine ⟨_, sent, ?_⟩
  have accepted : ((⟨[], takes⟩ : Outgoing).push calls buffers.flatten).accepted = buffers.flatten :=
    List.nil_append _
  constructor
  · exact accepted
  · intro closed
    rw [accepted, ← portions_flatten]
    apply recvEach_portions
    right
    rw [List.length_flatten]
  · intro stop
    rw [accepted, ← portions_complete buffers stop nonempty]
    exact recvEach_portions _ ⟨buffers.flatten.take stop, true, arrivals⟩ (.inl rfl)

/-- Two buffers, sent and received byte by byte; a stream of three bytes holds the first. -/
theorem transfers_inverse_bytewise : ∃ out,
    sendEach [ascii "ab", ascii "cd"] ⟨[], fun _ => 1⟩ = some ([2, 2], out) ∧
      List.Forall₂ Returns (recvEach [2, 2] ⟨out.accepted.take 3, true, fun _ => some 1⟩)
        [some (ascii "ab"), none] := by
  obtain ⟨out, sent, inverse⟩ := (transfers_inverse [ascii "ab", ascii "cd"] (by decide) (fun _ => 1)
    (fun _ => some 1)).1
  exact ⟨out, sent, inverse.cut 3⟩

end PubSub.Properties
