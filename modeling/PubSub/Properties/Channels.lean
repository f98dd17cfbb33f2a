import PubSub.Properties.Transfers
import PubSub.General.Runs

/-!
# Both loops at once

So far the receiver found everything sent. Here both ends of a connection work at the same
time: an event is one system call of one of the loops, or the return of a call, and the
events follow one another in any order. What the calls of `recv_all` return is the same.
-/
namespace PubSub.Properties

open General

/-- A connection with calls of `send_all` at one end and of `recv_all` at the other. -/
structure Channel where
  /-- The buffers still to be sent; the call for the first of them is running. -/
  buffers : List Bytes
  /-- `total` in the running `send_all`. -/
  total : Nat
  flight : Bytes
  closed : Bool
  /-- The lengths still to be received; the call for the first of them is running. -/
  lens : List Nat
  /-- The `total` bytes that the running `recv_all` has received. -/
  buffer : Bytes
  /-- What calls of `recv_all` have handed over; none for a call that has returned 0. -/
  returned : List (Option Bytes)

inductive ChannelEvent where
  /-- `send` takes this many bytes. -/
  | send (rc : Nat)
  /-- `send_all` returns. -/
  | sent
  /-- `recv` hands over this many bytes. -/
  | recv (rc : Nat)
  /-- `recv_all` returns `len`. -/
  | filled
  /-- `recv` reports the end of the stream, and `recv_all` returns 0. -/
  | ended
  | close

namespace Channel

variable (c : Channel)

/-- What the running `send_all` offers to `send`. -/
def offered : Bytes := (c.buffers.headD []).drop c.total

/-- How many bytes the running `recv_all` asks for. -/
def asked : Nat := c.lens.headD 0 - c.buffer.length

/-- What the sending end has not got rid of. -/
def unsent : Bytes := c.buffers.flatten.drop c.total

def Enabled : ChannelEvent → Prop
  | .send rc => c.closed = false ∧ 0 < rc ∧ rc ≤ c.offered.length
  | .sent => c.closed = false ∧ c.buffers ≠ [] ∧ c.offered = []
  | .recv rc => 0 < rc ∧ rc ≤ c.asked ∧ rc ≤ c.flight.length
  | .filled => c.lens ≠ [] ∧ c.asked = 0
  | .ended => 0 < c.asked ∧ c.flight = [] ∧ c.closed = true
  | .close => c.closed = false

instance : DecidablePred c.Enabled
  | .send rc => inferInstanceAs (Decidable (c.closed = false ∧ 0 < rc ∧ rc ≤ c.offered.length))
  | .sent => inferInstanceAs (Decidable (c.closed = false ∧ c.buffers ≠ [] ∧ c.offered = []))
  | .recv rc => inferInstanceAs (Decidable (0 < rc ∧ rc ≤ c.asked ∧ rc ≤ c.flight.length))
  | .filled => inferInstanceAs (Decidable (c.lens ≠ [] ∧ c.asked = 0))
  | .ended => inferInstanceAs (Decidable (0 < c.asked ∧ c.flight = [] ∧ c.closed = true))
  | .close => inferInstanceAs (Decidable (c.closed = false))

def apply : ChannelEvent → Channel
  | .send rc => { c with total := c.total + rc, flight := c.flight ++ c.offered.take rc }
  | .sent => { c with buffers := c.buffers.tail, total := 0 }
  | .recv rc => { c with flight := c.flight.drop rc, buffer := c.buffer ++ c.flight.take rc }
  | .filled => { c with lens := c.lens.tail, buffer := [], returned := c.returned ++ [some c.buffer] }
  | .ended => { c with lens := c.lens.tail, buffer := [], returned := c.returned ++ [none] }
  | .close => { c with closed := true }

end Channel

def channelSystem (buffers : List Bytes) (lens : List Nat) : System Channel ChannelEvent where
  start := ⟨buffers, 0, [], false, lens, [], []⟩
  enabled := Channel.Enabled
  step c e := some (c.apply e)

instance (buffers : List Bytes) (lens : List Nat) (c : Channel) (e : ChannelEvent) :
    Decidable ((channelSystem buffers lens).enabled c e) := inferInstanceAs (Decidable (c.Enabled e))

/-- The bytes `send` has accepted in this step. -/
def acceptedIn (x : Transition Channel ChannelEvent) : Bytes :=
  match x.event with
  | .send rc => x.before.offered.take rc
  | _ => []

def acceptedBytes (past : List (Transition Channel ChannelEvent)) : Bytes := past.flatMap acceptedIn

theorem acceptedBytes_snoc (past : List (Transition Channel ChannelEvent))
    (x : Transition Channel ChannelEvent) :
    acceptedBytes (past ++ [x]) = acceptedBytes past ++ acceptedIn x := by
  rw [acceptedBytes, List.flatMap_append, List.flatMap_singleton, acceptedBytes]

/-! ## What is on its way -/

/-- Nothing is lost between the ends, and what is due to the calls does not change. -/
structure Carried (buffers : List Bytes) (lens : List Nat)
    (past : List (Transition Channel ChannelEvent)) (c : Channel) : Prop where
  sender : acceptedBytes past ++ c.unsent = buffers.flatten
  within : c.total ≤ (c.buffers.headD []).length
  room : c.buffer.length ≤ c.lens.headD 0
  /-- Whatever is still to be sent: nothing, once the connection has been closed. -/
  due : ∀ future, (c.closed = true → future = []) →
    portions lens (acceptedBytes past ++ future) =
      c.returned ++ portions c.lens (c.buffer ++ c.flight ++ future)

section

variable {buffers : List Bytes} {lens : List Nat} {past : List (Transition Channel ChannelEvent)}
  {c : Channel}

theorem Channel.offered_unsent (within : c.total ≤ (c.buffers.headD []).length) :
    c.unsent = c.offered ++ c.buffers.tail.flatten := by
  rw [Channel.unsent, Channel.offered]
  cases shape : c.buffers with
  | nil => simp
  | cons buffer buffers =>
    rw [shape, List.headD_cons] at within
    rw [List.flatten_cons, List.headD_cons, List.tail_cons, List.drop_append_of_le_length within]

theorem Channel.offered_running {buffer : Bytes} (running : c.buffers.head? = some buffer) :
    c.offered = buffer.drop c.total := by
  rw [Channel.offered, List.headD_eq_head?_getD, running, Option.getD_some]

theorem Channel.asked_running {len : Nat} (running : c.lens.head? = some len) :
    c.asked = len - c.buffer.length := by
  rw [Channel.asked, List.headD_eq_head?_getD, running, Option.getD_some]

/-- Only a running call asks for bytes. -/
theorem Channel.exists_running (wanted : 0 < c.asked) :
    ∃ len others, c.lens = len :: others ∧ c.buffer.length < len := by
  rw [Channel.asked] at wanted
  cases shape : c.lens with
  | nil => simp [shape] at wanted
  | cons len others =>
    rw [shape, List.headD_cons] at wanted
    exact ⟨len, others, rfl, by omega⟩

theorem Channel.unsent_send (rc : Nat) : (c.apply (.send rc)).unsent = c.unsent.drop rc := by
  simp only [Channel.unsent, Channel.apply, List.drop_drop]

theorem Channel.unsent_sent (within : c.total ≤ (c.buffers.headD []).length) (done : c.offered = []) :
    (c.apply .sent).unsent = c.unsent := by
  rw [c.offered_unsent within, done]
  rfl

theorem Carried.send {rc : Nat} (carried : Carried buffers lens past c)
    (enabled : c.Enabled (.send rc)) :
    Carried buffers lens (past ++ [⟨c, .send rc, c.apply (.send rc)⟩]) (c.apply (.send rc)) := by
  obtain ⟨opened, positive, bound⟩ := enabled
  have size : c.offered.length = (c.buffers.headD []).length - c.total := List.length_drop
  have within : c.total + rc ≤ (c.buffers.headD []).length := by omega
  have accepted : acceptedBytes (past ++ [⟨c, .send rc, c.apply (.send rc)⟩]) =
      acceptedBytes past ++ c.offered.take rc := acceptedBytes_snoc past _
  refine ⟨?_, within, carried.room, ?_⟩
  · -- The bytes have moved from what was offered to what has been accepted.
    have moved : c.offered.take rc = c.unsent.take rc := by
      rw [c.offered_unsent carried.within, List.take_append_of_le_length bound]
    rw [accepted, c.unsent_send, moved, List.append_assoc, List.take_append_drop, carried.sender]
  · intro future _
    have due := carried.due (c.offered.take rc ++ future) (by simp [opened])
    rw [accepted, List.append_assoc, due]
    simp only [Channel.apply, List.append_assoc]

/-- A step in which `send` accepts nothing. -/
theorem Carried.silent {c' : Channel} {e : ChannelEvent} (carried : Carried buffers lens past c)
    (quiet : acceptedIn ⟨c, e, c'⟩ = []) (left : c'.unsent = c.unsent)
    (within : c'.total ≤ (c'.buffers.headD []).length) (room : c'.buffer.length ≤ c'.lens.headD 0)
    (closed : c.closed = true → c'.closed = true)
    (due : ∀ future, (c'.closed = true → future = []) →
      c.returned ++ portions c.lens (c.buffer ++ c.flight ++ future) =
        c'.returned ++ portions c'.lens (c'.buffer ++ c'.flight ++ future)) :
    Carried buffers lens (past ++ [⟨c, e, c'⟩]) c' := by
  have accepted : acceptedBytes (past ++ [⟨c, e, c'⟩]) = acceptedBytes past := by
    rw [acceptedBytes_snoc, quiet, List.append_nil]
  refine ⟨?_, within, room, ?_⟩
  · rw [accepted, left, carried.sender]
  · intro future ends
    rw [accepted, carried.due future (ends ∘ closed), due future ends]

theorem Carried.sent (carried : Carried buffers lens past c) (enabled : c.Enabled .sent) :
    Carried buffers lens (past ++ [⟨c, .sent, c.apply .sent⟩]) (c.apply .sent) := by
  obtain ⟨-, -, done⟩ := enabled
  exact carried.silent rfl (c.unsent_sent carried.within done) (Nat.zero_le _) carried.room id fun _ _ => rfl

theorem Carried.recv {rc : Nat} (carried : Carried buffers lens past c)
    (enabled : c.Enabled (.recv rc)) :
    Carried buffers lens (past ++ [⟨c, .recv rc, c.apply (.recv rc)⟩]) (c.apply (.recv rc)) := by
  obtain ⟨positive, wanted, bound⟩ := enabled
  rw [Channel.asked] at wanted
  refine carried.silent rfl rfl carried.within ?_ id ?_
  · simp only [Channel.apply, List.length_append, List.length_take]
    omega
  · intro future _
    simp only [Channel.apply, List.append_assoc]
    rw [← List.append_assoc (c.flight.take rc), List.take_append_drop]

/-- The running call has its bytes, and the next begins behind them. -/
theorem Carried.filled (carried : Carried buffers lens past c) (enabled : c.Enabled .filled) :
    Carried buffers lens (past ++ [⟨c, .filled, c.apply .filled⟩]) (c.apply .filled) := by
  obtain ⟨running, full⟩ := enabled
  refine carried.silent rfl rfl carried.within (Nat.zero_le _) id ?_
  intro future _
  obtain ⟨len, others, shape⟩ := List.exists_cons_of_ne_nil running
  have size : len = c.buffer.length := by
    have room := carried.room
    rw [Channel.asked, shape] at full
    rw [shape] at room
    simp only [List.headD_cons] at full room
    omega
  simp only [Channel.apply, shape, size, List.append_assoc, portions_enough]
  rfl

/-- The stream is used up, and the bytes of the running call with it. -/
theorem Carried.ended (carried : Carried buffers lens past c) (enabled : c.Enabled .ended) :
    Carried buffers lens (past ++ [⟨c, .ended, c.apply .ended⟩]) (c.apply .ended) := by
  obtain ⟨missing, empty, closed⟩ := enabled
  refine carried.silent rfl rfl carried.within (Nat.zero_le _) id ?_
  intro future ends
  obtain ⟨len, others, shape, short⟩ := c.exists_running missing
  simp only [Channel.apply, shape, empty, ends closed, List.append_nil, portions_short _ _ _ short]
  simp

theorem Carried.step {e : ChannelEvent} (carried : Carried buffers lens past c) (enabled : c.Enabled e) :
    Carried buffers lens (past ++ [⟨c, e, c.apply e⟩]) (c.apply e) := by
  cases e with
  | send rc => exact carried.send enabled
  | sent => exact carried.sent enabled
  | recv rc => exact carried.recv enabled
  | filled => exact carried.filled enabled
  | ended => exact carried.ended enabled
  | close =>
    exact carried.silent rfl rfl carried.within carried.room (fun _ => rfl) fun _ _ => rfl

theorem carried_of_run (run : (channelSystem buffers lens).Run past c) : Carried buffers lens past c := by
  apply run.invariant (P := Carried buffers lens)
  · exact ⟨rfl, Nat.zero_le _, Nat.zero_le _, fun _ _ => rfl⟩
  · intro past c e c' _ carried enabled stepped
    cases stepped
    exact carried.step enabled

end

def twoBuffers : List Bytes := [[7, 9], [5, 3]]

/-- The first buffer is received in two pieces, the second one has been sent in part. -/
def halfWayEvents : List ChannelEvent := [.send 2, .recv 1, .sent, .send 1, .recv 1, .filled]

theorem exists_halfWay : ∃ past c, (channelSystem twoBuffers (twoBuffers.map List.length)).Run past c ∧
    c.returned = [some [7, 9]] ∧ c.unsent = [3] ∧ c.lens = [2] ∧ c.closed = false := by
  obtain ⟨past, c, run, seen⟩ := System.exists_run
    (S := channelSystem twoBuffers (twoBuffers.map List.length)) halfWayEvents
    (fun _ c => decide (c.returned = [some [7, 9]] ∧ c.unsent = [3] ∧ c.lens = [2] ∧ c.closed = false))
    (by decide)
  exact ⟨past, c, run, of_decide_eq_true seen⟩

theorem exists_allTheWay : ∃ past c, (channelSystem twoBuffers (twoBuffers.map List.length)).Run past c ∧
    c.returned = [some [7, 9], some [5, 3]] ∧ c.lens = [] := by
  obtain ⟨past, c, run, seen⟩ := System.exists_run
    (S := channelSystem twoBuffers (twoBuffers.map List.length))
    (halfWayEvents ++ [.recv 1, .send 1, .recv 1, .filled, .sent])
    (fun _ c => decide (c.returned = [some [7, 9], some [5, 3]] ∧ c.lens = [])) (by decide)
  exact ⟨past, c, run, of_decide_eq_true seen⟩

section

variable {buffers : List Bytes} {lens : List Nat} {past : List (Transition Channel ChannelEvent)}
  {c : Channel}

/-! ## What the calls return -/

/-- What has been returned and what is still due make up what has been accepted. -/
theorem channel_due (run : (channelSystem buffers lens).Run past c) :
    portions lens (acceptedBytes past) = c.returned ++ portions c.lens (c.buffer ++ c.flight) := by
  have due := (carried_of_run run).due [] (fun _ => rfl)
  rwa [List.append_nil, List.append_nil] at due

/-- Once they have all returned, the calls have returned what they would have if everything
had been there before the first of them. -/
theorem channel_refines (run : (channelSystem buffers lens).Run past c) (done : c.lens = [])
    (arrivals : Nat → Option Nat) :
    List.Forall₂ Returns (recvEach lens ⟨acceptedBytes past, true, arrivals⟩) c.returned := by
  have due := channel_due run
  rw [done, portions, List.append_nil] at due
  rw [← due]
  exact recvEach_portions lens ⟨acceptedBytes past, true, arrivals⟩ (.inl rfl)

theorem channel_refines_allTheWay : ∃ past c,
    (channelSystem twoBuffers (twoBuffers.map List.length)).Run past c ∧ c.returned.length = 2 ∧
      List.Forall₂ Returns (recvEach [2, 2] ⟨acceptedBytes past, true, fun _ => none⟩) c.returned := by
  obtain ⟨past, c, run, returned, done⟩ := exists_allTheWay
  exact ⟨past, c, run, by rw [returned]; rfl, channel_refines run done fun _ => none⟩

theorem accepted_prefix (run : (channelSystem buffers lens).Run past c) :
    acceptedBytes past = buffers.flatten.take (acceptedBytes past).length := by
  rw [← (carried_of_run run).sender, List.take_left]

/-- While the connection is open, the buffers are what has been returned, what is on its way
and what is still to be sent. -/
theorem channel_open (run : (channelSystem buffers (buffers.map List.length)).Run past c)
    (opened : c.closed = false) :
    buffers.map some = c.returned ++ portions c.lens (c.buffer ++ c.flight ++ c.unsent) := by
  have carried := carried_of_run run
  have due := carried.due c.unsent (by simp [opened])
  rwa [carried.sender, portions_flatten] at due

/-- In every reachable state the calls have returned the buffers in order, up to the end of
the stream, and while the connection is open nothing but buffers. -/
theorem channel_in_order (nonempty : ∀ buffer ∈ buffers, buffer ≠ [])
    (run : (channelSystem buffers (buffers.map List.length)).Run past c) :
    c.returned <+: complete buffers (acceptedBytes past).length ∧
      (c.closed = false → c.returned <+: buffers.map some) := by
  constructor
  · rw [← portions_complete buffers _ nonempty, ← accepted_prefix run, channel_due run]
    exact List.prefix_append _ _
  · intro opened
    rw [channel_open run opened]
    exact List.prefix_append _ _

theorem channel_in_order_halfWay : ∃ past c,
    (channelSystem twoBuffers (twoBuffers.map List.length)).Run past c ∧ c.returned = [some [7, 9]] ∧
      c.closed = false ∧ c.returned <+: complete twoBuffers (acceptedBytes past).length ∧
        c.returned <+: twoBuffers.map some := by
  obtain ⟨past, c, run, returned, -, -, opened⟩ := exists_halfWay
  obtain ⟨whole, front⟩ := channel_in_order (by decide) run
  exact ⟨past, c, run, returned, opened, whole, front opened⟩

/-- Calls that have all returned before the connection is closed have returned the buffers. -/
theorem channel_inverse (run : (channelSystem buffers (buffers.map List.length)).Run past c)
    (done : c.lens = []) (opened : c.closed = false) : c.returned = buffers.map some := by
  rw [channel_open run opened, done, portions, List.append_nil]

/-! ## The calls return -/

/-- While a call of `recv_all` has not returned, one of the loops can go on. -/
theorem channel_progress (run : (channelSystem buffers (buffers.map List.length)).Run past c)
    (waiting : c.lens ≠ []) : ∃ e, e ≠ .close ∧ c.Enabled e := by
  by_cases full : c.asked = 0
  · exact ⟨.filled, by simp, waiting, full⟩
  have wanted : 0 < c.asked := Nat.pos_of_ne_zero full
  by_cases empty : c.flight = []
  · cases closed : c.closed with
    | true => exact ⟨.ended, by simp, wanted, empty, closed⟩
    | false =>
      -- The missing bytes are still at the other end.
      have due := channel_open run closed
      obtain ⟨len, others, shape, short⟩ := c.exists_running wanted
      have missing : c.unsent ≠ [] := by
        intro nothing
        rw [shape, empty, nothing, List.append_nil, List.append_nil, portions_short _ _ _ short] at due
        have member : none ∈ buffers.map some := by
          rw [due]
          exact List.mem_append_cons_self
        simp at member
      by_cases sent : c.offered = []
      · refine ⟨.sent, by simp, closed, ?_, sent⟩
        intro nobody
        exact missing (by rw [Channel.unsent, nobody, List.flatten_nil, List.drop_nil])
      · exact ⟨.send 1, by simp, closed, Nat.one_pos, List.length_pos_iff.mpr sent⟩
  · exact ⟨.recv 1, by simp, Nat.one_pos, wanted, List.length_pos_iff.mpr empty⟩

/-- How many events there can still be. Every byte is sent and received. -/
def Channel.left (c : Channel) : Nat :=
  2 * c.unsent.length + c.flight.length + c.buffers.length + c.lens.length + (!c.closed).toNat

theorem Carried.left {e : ChannelEvent} (carried : Carried buffers lens past c) (enabled : c.Enabled e) :
    (c.apply e).left < c.left := by
  cases e with
  | send rc =>
    obtain ⟨opened, positive, bound⟩ := enabled
    have offered := congrArg List.length (c.offered_unsent carried.within)
    rw [List.length_append] at offered
    simp only [Channel.left, c.unsent_send, List.length_drop]
    simp only [Channel.apply, List.length_append, List.length_take]
    omega
  | sent =>
    obtain ⟨opened, running, done⟩ := enabled
    have calls := List.length_pos_iff.mpr running
    simp only [Channel.left, c.unsent_sent carried.within done]
    simp only [Channel.apply, List.length_tail]
    omega
  | recv rc =>
    obtain ⟨positive, wanted, bound⟩ := enabled
    simp only [Channel.left, Channel.unsent, Channel.apply, List.length_drop]
    omega
  | filled =>
    have calls := List.length_pos_iff.mpr enabled.1
    simp only [Channel.left, Channel.unsent, Channel.apply, List.length_tail]
    omega
  | ended =>
    obtain ⟨len, others, shape, -⟩ := c.exists_running enabled.1
    simp only [Channel.left, Channel.unsent, Channel.apply, shape, List.tail_cons, List.length_cons]
    omega
  | close =>
    have opened : c.closed = false := enabled
    simp [Channel.left, Channel.unsent, Channel.apply, opened]

/-- While the connection is open, the loops can be run on until every call has returned, and
then the calls have returned the buffers. -/
theorem channel_completes (run : (channelSystem buffers (buffers.map List.length)).Run past c)
    (opened : c.closed = false) :
    ∃ future c', (channelSystem buffers (buffers.map List.length)).Run (past ++ future) c' ∧
      c'.lens = [] ∧ c'.returned = buffers.map some := by
  generalize bound : c.left = n
  induction n using Nat.strong_induction_on generalizing past c with
  | _ n ih =>
    by_cases done : c.lens = []
    · exact ⟨[], c, by rwa [List.append_nil], done, channel_inverse run done opened⟩
    · obtain ⟨e, other, enabled⟩ := channel_progress run done
      have fewer := (carried_of_run run).left enabled
      have still : (c.apply e).closed = false := by
        cases e with
        | close => exact absurd rfl other
        | _ => exact opened
      obtain ⟨future, c', later, all, returned⟩ :=
        ih (c.apply e).left (by omega) (run.next enabled rfl) still rfl
      refine ⟨⟨c, e, c.apply e⟩ :: future, c', ?_, all, returned⟩
      rwa [List.append_assoc, List.singleton_append] at later

theorem channel_completes_halfWay : ∃ past c,
    (channelSystem twoBuffers (twoBuffers.map List.length)).Run past c ∧ c.unsent = [3] ∧ ∃ future c',
      (channelSystem twoBuffers (twoBuffers.map List.length)).Run (past ++ future) c' ∧ c'.lens = [] ∧
        c'.returned = twoBuffers.map some := by
  obtain ⟨past, c, run, -, unsent, -, opened⟩ := exists_halfWay
  exact ⟨past, c, run, unsent, channel_completes run opened⟩

/-- No run goes on for ever. -/
theorem channel_ends (run : (channelSystem buffers lens).Run past c) :
    past.length ≤ 2 * buffers.flatten.length + buffers.length + lens.length + 1 := by
  have counted : past.length + c.left ≤ 2 * buffers.flatten.length + buffers.length + lens.length + 1 := by
    apply run.invariant (P := fun past c =>
      past.length + c.left ≤ 2 * buffers.flatten.length + buffers.length + lens.length + 1)
    · simp [channelSystem, Channel.left, Channel.unsent]
    · intro past c e c' run before enabled stepped
      cases stepped
      have fewer := (carried_of_run run).left enabled
      rw [List.length_append, List.length_singleton]
      omega
  omega

theorem channel_ends_halfWay : ∃ past c,
    (channelSystem twoBuffers (twoBuffers.map List.length)).Run past c ∧ c.returned = [some [7, 9]] ∧
      past.length ≤ 13 := by
  obtain ⟨past, c, run, returned, -⟩ := exists_halfWay
  exact ⟨past, c, run, returned, channel_ends run⟩

/-! ## The loops are runs of the channel -/

theorem event_run {e : ChannelEvent} (run : (channelSystem buffers lens).Run past c)
    (enabled : c.Enabled e) :
    (channelSystem buffers lens).Run (past ++ [⟨c, e, c.apply e⟩]) (c.apply e) :=
  .next run enabled rfl

/-- The channel behind a call of `recv_all`. -/
def Channel.afterRecv (c : Channel) (call : RecvAll) : Channel :=
  { c with
    flight := call.rest.pending
    lens := c.lens.tail
    buffer := []
    returned := c.returned ++ [call.handed] }

private theorem recvLoop_full (fuel : Nat) {len : Nat} {sock : Incoming}
    (run : (channelSystem buffers lens).Run past c) (running : c.lens.head? = some len)
    (stream : sock.pending = c.flight) (full : ¬ c.buffer.length < len) :
    ∃ past, (channelSystem buffers lens).Run past (c.afterRecv (recvLoop len fuel c.buffer sock)) := by
  have filled : recvLoop len fuel c.buffer sock = .filled c.buffer sock := by
    unfold recvLoop
    rw [if_neg full]
  have enabled : c.Enabled .filled := by
    refine ⟨?_, ?_⟩
    · rintro nobody
      simp [nobody] at running
    · rw [c.asked_running running]
      omega
  have behind : c.afterRecv (.filled c.buffer sock) = c.apply .filled := by
    simp only [Channel.afterRecv, Channel.apply, RecvAll.rest, RecvAll.handed, stream]
  rw [filled, behind]
  exact ⟨_, event_run run enabled⟩

/-- The rounds of `recv_all` are events, up to the one in which it returns. -/
theorem recvLoop_run (fuel : Nat) {len : Nat} {sock : Incoming}
    (run : (channelSystem buffers lens).Run past c) (running : c.lens.head? = some len)
    (stream : sock.pending = c.flight) (ends : sock.closed = c.closed)
    (returns : (recvLoop len fuel c.buffer sock).returned.isSome = true) :
    ∃ past, (channelSystem buffers lens).Run past (c.afterRecv (recvLoop len fuel c.buffer sock)) := by
  induction fuel generalizing past c sock with
  | zero =>
    by_cases more : c.buffer.length < len
    · rw [recvLoop, if_pos more] at returns
      cases returns
    · exact recvLoop_full 0 run running stream more
  | succ fuel ih =>
    by_cases more : c.buffer.length < len
    · have asked := c.asked_running running
      rw [recvLoop, if_pos more] at returns ⊢
      by_cases empty : sock.pending = []
      · rw [Incoming.recv_empty _ _ empty] at returns ⊢
        cases closed : sock.closed with
        | true =>
          have enabled : c.Enabled .ended := ⟨by omega, stream ▸ empty, ends ▸ closed⟩
          have behind : c.afterRecv (.ended sock) = c.apply .ended := by
            simp only [Channel.afterRecv, Channel.apply, RecvAll.rest, RecvAll.handed, stream]
          exact ⟨_, behind ▸ event_run run enabled⟩
        | false =>
          rw [closed] at returns
          cases returns
      · rw [Incoming.recv_data _ _ empty] at returns ⊢
        have positive := sock.ready_pos (len - c.buffer.length) (by omega) empty
        have bound := sock.ready_le (len - c.buffer.length)
        generalize sock.ready (len - c.buffer.length) = rc at returns positive bound ⊢
        rw [stream] at bound
        have enabled : c.Enabled (.recv rc) := ⟨positive, by omega, by omega⟩
        rw [stream] at returns ⊢
        exact ih (event_run run enabled) running (by rw [Incoming.skip_pending, stream]; rfl) ends returns
    · exact recvLoop_full (fuel + 1) run running stream more

/-- The channel behind a call of `send_all`, with these bytes on their way. -/
def Channel.afterSend (c : Channel) (flight : Bytes) : Channel :=
  { c with buffers := c.buffers.tail, total := 0, flight := flight }

private theorem sendLoop_full (fuel : Nat) {buffer : Bytes} {sock out : Outgoing} {n : Nat}
    (run : (channelSystem buffers lens).Run past c) (running : c.buffers.head? = some buffer)
    (opened : c.closed = false) (full : ¬ c.total < buffer.length)
    (sent : sendLoop buffer buffer.length fuel c.total sock = some (n, out)) :
    ∃ past moved, (channelSystem buffers lens).Run past (c.afterSend (c.flight ++ moved)) ∧
      out.accepted = sock.accepted ++ moved := by
  have enabled : c.Enabled .sent := by
    refine ⟨opened, ?_, ?_⟩
    · intro nobody
      simp [nobody] at running
    · rw [c.offered_running running]
      exact List.drop_eq_nil_of_le (by omega)
  unfold sendLoop at sent
  rw [if_neg full] at sent
  cases sent
  have behind : c.afterSend (c.flight ++ []) = c.apply .sent := by
    rw [List.append_nil]
    rfl
  exact ⟨_, [], behind ▸ event_run run enabled, (List.append_nil _).symm⟩

/-- The rounds of `send_all` are events; what `send` has accepted is on its way. -/
theorem sendLoop_run (fuel : Nat) {buffer : Bytes} {sock out : Outgoing} {n : Nat}
    (run : (channelSystem buffers lens).Run past c) (running : c.buffers.head? = some buffer)
    (opened : c.closed = false)
    (sent : sendLoop buffer buffer.length fuel c.total sock = some (n, out)) :
    ∃ past moved, (channelSystem buffers lens).Run past (c.afterSend (c.flight ++ moved)) ∧
      out.accepted = sock.accepted ++ moved := by
  induction fuel generalizing past c sock with
  | zero =>
    by_cases more : c.total < buffer.length
    · rw [sendLoop, if_pos more] at sent
      cases sent
    · exact sendLoop_full 0 run running opened more sent
  | succ fuel ih =>
    by_cases more : c.total < buffer.length
    · have offered := c.offered_running running
      have size : c.offered.length = buffer.length - c.total := by rw [offered, List.length_drop]
      rw [sendLoop, if_pos more, List.take_of_length_le (by rw [List.length_drop]), ← offered] at sent
      have positive := sock.taken_pos c.offered.length (by omega)
      have bound := sock.taken_le c.offered.length
      simp only [Outgoing.send] at sent
      generalize sock.taken c.offered.length = rc at sent positive bound
      have enabled : c.Enabled (.send rc) := ⟨opened, positive, bound⟩
      obtain ⟨past, moved, run, accepted⟩ := ih (event_run run enabled) running opened sent
      refine ⟨past, c.offered.take rc ++ moved, ?_, ?_⟩
      · rw [← List.append_assoc]
        exact run
      · rw [accepted, Outgoing.push_accepted, List.append_assoc]
    · exact sendLoop_full (fuel + 1) run running opened more sent

theorem sendEach_run {sock out : Outgoing} {ns : List Nat}
    (run : (channelSystem buffers lens).Run past c) (fresh : c.total = 0) (opened : c.closed = false)
    (sent : sendEach c.buffers sock = some (ns, out)) :
    ∃ past moved, (channelSystem buffers lens).Run past
        { c with buffers := [], flight := c.flight ++ moved } ∧
      out.accepted = sock.accepted ++ moved := by
  generalize calls : c.buffers = remaining at sent
  induction remaining generalizing past c sock ns with
  | nil =>
    cases sent
    refine ⟨past, [], ?_, (List.append_nil _).symm⟩
    rw [List.append_nil, ← calls]
    exact run
  | cons buffer remaining ih =>
    simp only [sendEach, Option.bind_eq_bind, Option.bind_eq_some_iff] at sent
    obtain ⟨⟨n, sock'⟩, first, ⟨others, out'⟩, rest, last⟩ := sent
    cases last
    rw [sendAll, ← fresh] at first
    obtain ⟨past, moved, run, accepted⟩ :=
      sendLoop_run buffer.length run (by rw [calls, List.head?_cons]) opened first
    have left : (c.afterSend (c.flight ++ moved)).buffers = remaining := by
      rw [Channel.afterSend, calls, List.tail_cons]
    obtain ⟨past, more, run, accepted'⟩ := ih run rfl opened left rest
    refine ⟨past, moved ++ more, ?_, ?_⟩
    · rw [← List.append_assoc]
      simpa only [Channel.afterSend, fresh] using run
    · rw [accepted', accepted, List.append_assoc]

theorem recvEach_run {sock : Incoming} (run : (channelSystem buffers lens).Run past c)
    (fresh : c.buffer = []) (stream : sock.pending = c.flight) (ends : sock.closed = c.closed)
    (returns : ∀ call ∈ recvEach c.lens sock, call.returned.isSome = true) :
    ∃ past c', (channelSystem buffers lens).Run past c' ∧ c'.lens = [] ∧
      c'.returned = c.returned ++ (recvEach c.lens sock).map RecvAll.handed := by
  generalize calls : c.lens = remaining at returns
  induction remaining generalizing past c sock with
  | nil => exact ⟨past, c, run, calls, (List.append_nil _).symm⟩
  | cons len remaining ih =>
    have first := returns (recvAll len sock) List.mem_cons_self
    rw [recvEach, if_pos first] at returns ⊢
    rw [recvAll, ← fresh] at first
    obtain ⟨past, run⟩ := recvLoop_run len run (by rw [calls, List.head?_cons]) stream ends first
    rw [fresh] at run
    have closed := (recvAll_ownBytes len sock).closed.trans ends
    obtain ⟨past, c', run, done, handed⟩ := ih run rfl rfl closed
      (by simp [Channel.afterRecv, calls])
      (fun call member => returns call (List.mem_cons_of_mem _ member))
    refine ⟨past, c', run, done, ?_⟩
    rw [handed]
    simp [Channel.afterRecv, recvAll]

end

/-- All of one end and then all of the other is one of the orders: as long as the calls of
`recv_all` return, a run of the channel does what they do. -/
theorem calls_run (buffers : List Bytes) (lens : List Nat) (takes : Nat → Nat) (closed : Bool)
    (arrivals : Nat → Option Nat) {ns : List Nat} {out : Outgoing}
    (sent : sendEach buffers ⟨[], takes⟩ = some (ns, out))
    (returns : ∀ call ∈ recvEach lens ⟨out.accepted, closed, arrivals⟩, call.returned.isSome = true) :
    ∃ past c, (channelSystem buffers lens).Run past c ∧ c.lens = [] ∧
      c.returned = (recvEach lens ⟨out.accepted, closed, arrivals⟩).map RecvAll.handed := by
  obtain ⟨past, moved, run, accepted⟩ :=
    sendEach_run (.start : (channelSystem buffers lens).Run [] _) rfl rfl sent
  have stream : out.accepted = [] ++ moved := accepted
  -- The receiver starts behind the last byte, or behind the end of the connection.
  cases closed with
  | false => exact recvEach_run run rfl stream rfl returns
  | true =>
    have opened : (channelSystem buffers lens).start.closed = false := rfl
    exact recvEach_run (event_run run (e := .close) opened) rfl stream rfl returns

end PubSub.Properties
