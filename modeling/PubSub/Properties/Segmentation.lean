import PubSub.Properties.Decoder
import PubSub.Server.State
import Mathlib.Logic.Relation
import Mathlib.Tactic.IntervalCases

/-!
# Decoding and segmentation

The peek does not wait for all four bytes of a length. On a length whose first
byte is 68 but which is not 68 it may see a control message that is not there.
-/
namespace PubSub.Properties

open General

/-- The stream behind its first message, if decoding goes on there. -/
def nextFrame (bytes : Bytes) : Option Bytes :=
  if View.prefixValue bytes = sizeofTcpRequest then
    if sizeofTcpRequest ≤ bytes.length ∧
        View.noticeWord (bytes.take sizeofTcpRequest) ≠ systemShutdown then
      some (bytes.drop sizeofTcpRequest)
    else none
  else if 6 ≤ View.prefixValue bytes ∧ 4 + View.prefixValue bytes ≤ bytes.length then
    some (bytes.drop (4 + (View.prefixValue bytes).toNat))
  else none

/-- Decoding `bytes` message by message reaches `rest` at the start of a message. -/
def FrameStart : Bytes → Bytes → Prop :=
  Relation.ReflTransGen fun bytes rest => nextFrame bytes = some rest

/-- A message whose length begins like that of a control message, and where it
makes a difference to take it for one. -/
def Misreadable (closed : Bool) (bytes : Bytes) : Prop :=
  4 ≤ bytes.length ∧ bytes.head? = some 68 ∧ View.prefixValue bytes ≠ sizeofTcpRequest ∧
    (View.prefixValue bytes < 0 ∨ 4 + View.prefixValue bytes ≤ bytes.length ∨
      sizeofTcpRequest ≤ bytes.length ∧
        ¬ (View.noticeWord (bytes.take sizeofTcpRequest) = systemShutdown ∧ closed = true))

/-- What the loop comes to on a stream: the strings given to `parse_input`, and
how it ended. -/
def outcome (rt : RealText) (sock : Incoming) : List Bytes × Status :=
  (((Subscriber.start sock).drain rt).parsed, ((Subscriber.start sock).drain rt).status)

/-! ## What a peek can tell -/

private theorem toInt32_control (word : Nat) :
    toInt32 word = sizeofTcpRequest ↔ word % 2 ^ 32 = 68 := by
  unfold toInt32 sizeofTcpRequest
  split <;> omega

private theorem exact_iff (bytes : Bytes) :
    View.exact bytes = true ↔ leValue bytes % 2 ^ 32 = 68 := by
  rw [View.exact, View.prefixValue, decide_eq_true_iff, toInt32_control, leValue_take]
  norm_num

private theorem looksControl_iff (sock : Incoming) :
    looksControl sock = true ↔ leValue sock.pending % 256 ^ sock.ready 4 = 68 := by
  have bound : sock.ready 4 ≤ 4 := (sock.ready_le 4).trans (Nat.min_le_left _ _)
  rw [looksControl, decide_eq_true_iff, toInt32_control, leValue_take]
  have small : leValue sock.pending % 256 ^ sock.ready 4 < 2 ^ 32 := by
    have positive : 0 < 256 ^ sock.ready 4 := Nat.pow_pos (by decide)
    have grows : 256 ^ sock.ready 4 ≤ 256 ^ 4 := Nat.pow_le_pow_right (by decide) bound
    have below := Nat.mod_lt (leValue sock.pending) positive
    omega
  rw [Nat.mod_eq_of_lt small]

private theorem head_iff (bytes : Bytes) :
    bytes.head? = some 68 ↔ leValue bytes % 256 = 68 := by
  cases bytes with
  | nil => simp [leValue]
  | cons byte rest =>
    have bound := byte.toNat_lt
    have low : leValue (byte :: rest) % 256 = byte.toNat := by
      rw [leValue]
      omega
    rw [low, List.head?_cons, Option.some.injEq, ← UInt8.toNat_inj]
    rfl

/-- A control message is seen however little of it has arrived. -/
theorem looksControl_of_exact (sock : Incoming) (exact : View.exact sock.pending = true) :
    looksControl sock = true := by
  rw [exact_iff] at exact
  rw [looksControl_iff]
  have nonempty : sock.pending ≠ [] := by
    intro empty
    rw [empty] at exact
    exact absurd exact (by decide)
  have some_ready := sock.ready_pos 4 (by decide) nonempty
  have bound : sock.ready 4 ≤ 4 := (sock.ready_le 4).trans (Nat.min_le_left _ _)
  -- The low bytes of 68 read as 68, however many of them are there.
  generalize sock.ready 4 = k at some_ready bound
  interval_cases k <;> omega

/-- What looks like a control message begins like one. -/
theorem head_of_looksControl (sock : Incoming) (looks : looksControl sock = true) :
    sock.pending.head? = some 68 := by
  rw [looksControl_iff] at looks
  rw [head_iff]
  have nonempty : sock.pending ≠ [] := by
    intro empty
    rw [empty] at looks
    simp [leValue] at looks
  have some_ready := sock.ready_pos 4 (by decide) nonempty
  have bound : sock.ready 4 ≤ 4 := (sock.ready_le 4).trans (Nat.min_le_left _ _)
  -- However many bytes the peek has got, the first one is among them.
  generalize sock.ready 4 = k at some_ready bound looks
  interval_cases k <;> omega

/-! ## Where decoding goes on -/

namespace View

theorem message_closed (looks : Bool) (v : View) : (v.message looks).closed = v.closed := by
  unfold message control data text
  dsimp only
  split_ifs <;> rfl

private theorem control_next (v : View) (running : v.status = .running)
    (is_control : prefixValue v.pending = sizeofTcpRequest) :
    nextFrame v.pending =
      if v.control.status = .running then some v.control.pending else none := by
  rw [nextFrame, if_pos is_control]
  simp only [control]
  by_cases available : sizeofTcpRequest ≤ v.pending.length
  · have size : 6 ≤ (v.pending.take sizeofTcpRequest).length := by
      rw [List.length_take, Nat.min_eq_left available]
      decide
    by_cases shutdown : noticeWord (v.pending.take sizeofTcpRequest) = systemShutdown
    · simp [available, shutdown]
    · simp only [available, shutdown, ne_eq, not_false_eq_true, and_self, ite_true, if_false, parse,
        if_pos size, running]
  · rw [if_neg (fun both => available both.1), if_neg available, if_neg (cutOff_status v)]

private theorem data_next (v : View) (running : v.status = .running)
    (is_data : prefixValue v.pending ≠ sizeofTcpRequest) :
    nextFrame v.pending = if v.data.status = .running then some v.data.pending else none := by
  rw [nextFrame, if_neg is_data]
  unfold data text
  dsimp only
  generalize prefixValue v.pending = len
  by_cases prefixed : 4 ≤ v.pending.length
  · rw [if_pos prefixed]
    by_cases negative : len < 0
    · rw [if_neg (by omega), if_pos negative, if_neg (by simp)]
    · rw [if_neg negative, List.length_drop]
      by_cases inside : len.toNat ≤ v.pending.length - 4
      · have body : ((v.pending.drop 4).take len.toNat).length = len.toNat := by
          rw [List.length_take, List.length_drop, Nat.min_eq_left inside]
        rw [if_pos inside]
        -- `parse_input` needs the six bytes of the sender's address.
        by_cases long : 6 ≤ len
        · have filled : ¬ (v.pending.drop 4).take len.toNat = [] := by
            intro empty
            rw [empty] at body
            simp only [List.length_nil] at body
            omega
          rw [if_pos (by omega), if_neg filled]
          simp only [parse, body, List.drop_drop]
          rw [if_pos (by omega : 6 ≤ len.toNat), if_pos running]
        · rw [if_neg (by omega)]
          by_cases empty : (v.pending.drop 4).take len.toNat = []
          · rw [if_pos empty]
            simp
          · rw [if_neg empty]
            simp only [parse, body]
            rw [if_neg (by omega : ¬ 6 ≤ len.toNat)]
            simp
      · rw [if_neg inside, if_neg (by omega), if_neg (cutOff_status _)]
  · rw [if_neg prefixed, if_neg (by omega), if_neg (cutOff_status v)]

/-- `nextFrame` says where the loop goes on when it sees whole prefixes. -/
theorem message_next (v : View) (running : v.status = .running) :
    nextFrame v.pending =
      if (v.message (exact v.pending)).status = .running then
        some (v.message (exact v.pending)).pending
      else none := by
  unfold message
  by_cases empty : v.pending = []
  · rw [if_pos empty, if_neg (cutOff_status v), empty]
    decide
  · rw [if_neg empty]
    by_cases is_control : prefixValue v.pending = sizeofTcpRequest
    · rw [exact, decide_eq_true is_control, if_pos rfl, control_next v running is_control]
    · rw [exact, decide_eq_false is_control, if_neg Bool.false_ne_true,
        data_next v running is_control]

/-! ## Peeks that make no difference -/

/-- The same for all that follows. -/
def Alike (a b : View) : Prop :=
  a = b ∨ a.status ≠ .running ∧ b.status ≠ .running ∧ a.parsed = b.parsed ∧ a.status = b.status

/-- A message that cannot be misread comes out the same, whatever the peek told. -/
theorem message_alike (v : View) (looks : Bool)
    (seen : exact v.pending = true → looks = true)
    (first : looks = true → v.pending.head? = some 68)
    (safe : ¬ Misreadable v.closed v.pending) :
    Alike (v.message looks) (v.message (exact v.pending)) := by
  by_cases agree : looks = exact v.pending
  · exact .inl (congrArg v.message agree)
  · -- Only a long length can be taken for 68, not the other way round.
    have is_data : exact v.pending = false := by
      cases told : exact v.pending with
      | false => rfl
      | true => exact absurd (seen told |>.trans told.symm) agree
    have is_control : looks = true := by
      cases told : looks with
      | true => rfl
      | false => exact absurd (told.trans is_data.symm) agree
    have head := first is_control
    have nonempty : v.pending ≠ [] := by
      intro empty
      rw [empty] at head
      cases head
    rw [is_data, is_control, message, message, if_neg nonempty, if_neg nonempty, if_pos rfl,
      if_neg Bool.false_ne_true]
    have long : prefixValue v.pending ≠ sizeofTcpRequest := of_decide_eq_false is_data
    by_cases prefixed : 4 ≤ v.pending.length
    · -- Then the stream ends within both the data message and the control message,
      -- or the control message ends the loop just as the end of the stream does.
      have same_end := fun reason => safe ⟨prefixed, head, long, reason⟩
      rw [imp_false, not_or, not_or] at same_end
      obtain ⟨positive, cut, shutdown⟩ := same_end
      have data_cut : v.data = { v with pending := v.pending.drop 4 }.cutOff := by
        have outside : ¬ (prefixValue v.pending).toNat ≤ (v.pending.drop 4).length := by
          rw [List.length_drop]
          omega
        rw [data, if_pos prefixed, text, if_neg (by omega), if_neg outside]
      rw [data_cut]
      by_cases available : sizeofTcpRequest ≤ v.pending.length
      · obtain ⟨word, closed⟩ := by_contra fun other => shutdown ⟨available, other⟩
        right
        simp [control, available, word, cutOff, closed]
      · left
        rw [control, if_neg available]
        rfl
    · left
      have short : ¬ sizeofTcpRequest ≤ v.pending.length := by
        simp only [sizeofTcpRequest]
        omega
      rw [control, data, if_neg prefixed, if_neg short]

end View

/-- No message that decoding reaches can be misread. -/
def Unmistakable (closed : Bool) (bytes : Bytes) : Prop :=
  ∀ rest, FrameStart bytes rest → ¬ Misreadable closed rest

/-- However such a stream arrives, its messages come out as on the whole stream. -/
theorem rounds_alike (rt : RealText) (n : Nat) (c : Subscriber) (v : View)
    (alike : View.Alike (viewOf c) v)
    (safe : c.status = .running → Unmistakable c.sock.closed c.sock.pending) :
    View.Alike (viewOf (c.rounds rt n)) (v.rounds View.exact n) := by
  induction n generalizing c v with
  | zero => exact alike
  | succ n ih =>
    rw [Subscriber.rounds, View.rounds]
    by_cases running : c.status = .running
    · have same : viewOf c = v := by
        rcases alike with same | ⟨stopped, _⟩
        · exact same
        · exact absurd running stopped
      subst same
      obtain ⟨view, later⟩ := handleServerMessage_view rt c
      have safe := safe running
      have step := View.message_alike (viewOf c) (looksControl c.sock)
        (looksControl_of_exact c.sock) (head_of_looksControl c.sock) (safe _ .refl)
      rw [← view] at step
      rw [Subscriber.round, if_pos running, View.round,
        if_pos (show (viewOf c).status = .running from running)]
      apply ih _ _ step
      intro still
      -- A loop that goes on stands at the start of the next message.
      have same : viewOf (handleServerMessage rt c) =
          (viewOf c).message (View.exact (viewOf c).pending) := by
        rcases step with same | ⟨stopped, _⟩
        · exact same
        · exact absurd still stopped
      have next := View.message_next (viewOf c) running
      rw [← same, if_pos (show (viewOf (handleServerMessage rt c)).status = .running from still)] at next
      have closed : (handleServerMessage rt c).sock.closed = c.sock.closed := by
        have kept := View.message_closed (View.exact (viewOf c).pending) (viewOf c)
        rw [← same] at kept
        exact kept
      rw [closed]
      intro rest reached
      exact safe rest (.head next reached)
    · have stopped : v.status ≠ .running := by
        rcases alike with same | ⟨_, stopped, _⟩
        · rw [← same]
          exact running
        · exact stopped
      rw [Subscriber.round, if_neg running, View.round, if_neg stopped]
      exact ih c v alike (fun again => absurd again running)

/-! ## A peek of one byte -/

/-- What a peek tells when one byte has arrived. -/
def firstByte (bytes : Bytes) : Bool := bytes.head? = some 68

/-- Each byte arrives when it is waited for. -/
def dripping (bytes : Bytes) (closed : Bool) : Incoming := ⟨bytes, closed, fun _ => some 1⟩

theorem looksControl_dripping (sock : Incoming) (slow : sock.arrivals = fun _ => some 1) :
    looksControl sock = firstByte sock.pending := by
  apply Bool.eq_iff_iff.mpr
  rw [looksControl_iff, firstByte, decide_eq_true_iff, head_iff]
  by_cases empty : sock.pending = []
  · simp [empty, leValue]
  · have positive : 0 < sock.pending.length := List.length_pos_iff.mpr empty
    -- A peek into a dripping stream gets one byte.
    have one : sock.ready 4 = 1 := by
      simp only [Incoming.ready]
      rw [slow]
      simp only
      omega
    rw [one, pow_one]

theorem nextFrame_shorter (bytes rest : Bytes) (next : nextFrame bytes = some rest) :
    rest.length < bytes.length := by
  simp only [nextFrame] at next
  split at next
  · split at next
    next complete =>
      cases next
      have size : 0 < sizeofTcpRequest := by decide
      rw [List.length_drop]
      omega
    · cases next
  · split at next
    next complete =>
      cases next
      rw [List.length_drop]
      omega
    · cases next

private theorem prefixValue_of_head (bytes : Bytes) (head : bytes.head? = some 68)
    (long : View.prefixValue bytes ≠ sizeofTcpRequest) (positive : 0 ≤ View.prefixValue bytes) :
    324 ≤ View.prefixValue bytes := by
  rw [head_iff] at head
  unfold View.prefixValue toInt32 at *
  rw [leValue_take] at *
  simp only [sizeofTcpRequest] at long
  -- The next number with the low byte 68 is 324.
  split at long <;> split at positive <;> omega

private theorem grown (before after : List Bytes) (text : Bytes) (grows : before ++ [text] <+: after) :
    after ≠ before := by
  intro same
  have length := grows.length_le
  rw [same, List.length_append, List.length_singleton] at length
  omega

namespace View

/-- Two runs that have come apart, for good. -/
def Apart (a b : View) : Prop := a.parsed ≠ b.parsed ∨ a.status ≠ b.status

/-- What a record that is not a shutdown notice leaves behind, as long as the loop may run. -/
private theorem control_grows (f : Bytes → Bool) (n : Nat) (v : View)
    (available : sizeofTcpRequest ≤ v.pending.length)
    (other : noticeWord (v.pending.take sizeofTcpRequest) ≠ systemShutdown) :
    v.parsed ++ [v.pending.take sizeofTcpRequest] <+: (v.control.rounds f n).parsed := by
  have first : v.control.parsed = v.parsed ++ [v.pending.take sizeofTcpRequest] := by
    rw [control, if_pos available]
    dsimp only
    rw [if_neg other]
    rfl
  rw [← first]
  exact rounds_parsed f n _

private theorem control_shutdown (f : Bytes → Bool) (n : Nat) (v : View)
    (available : sizeofTcpRequest ≤ v.pending.length)
    (shutdown : noticeWord (v.pending.take sizeofTcpRequest) = systemShutdown) :
    v.control.rounds f n =
      { v with pending := v.pending.drop sizeofTcpRequest, status := .stopped } := by
  have first : v.control =
      { v with pending := v.pending.drop sizeofTcpRequest, status := .stopped } := by
    rw [control, if_pos available]
    dsimp only
    rw [if_pos shutdown]
  rw [first, rounds_done f n _ (by simp)]

/-- `recv_string` throws on a negative length, and a control message never does. -/
private theorem negative_apart (f g : Bytes → Bool) (n : Nat) (v : View)
    (prefixed : 4 ≤ v.pending.length) (negative : prefixValue v.pending < 0) :
    Apart (v.control.rounds f n) (v.data.rounds g n) := by
  have thrown : v.data.rounds g n = { v with pending := v.pending.drop 4, status := .aborted } := by
    rw [data, if_pos prefixed, text, if_pos negative, rounds_done g n _ (by simp)]
  rw [thrown]
  by_cases available : sizeofTcpRequest ≤ v.pending.length
  · by_cases shutdown : noticeWord (v.pending.take sizeofTcpRequest) = systemShutdown
    · rw [control_shutdown f n v available shutdown]
      exact .inr (by simp)
    · exact .inl (grown _ _ _ (control_grows f n v available shutdown))
  · right
    rw [control, if_neg available, rounds_done f n _ (cutOff_status v), cutOff]
    cases v.closed <;> simp

/-- The body of a complete message is a string of its own, longer than a control message. -/
private theorem complete_apart (f g : Bytes → Bool) (n : Nat) (v : View)
    (far : 324 ≤ prefixValue v.pending)
    (inside : 4 + prefixValue v.pending ≤ v.pending.length) :
    Apart (v.control.rounds f n) (v.data.rounds g n) := by
  have body : ((v.pending.drop 4).take (prefixValue v.pending).toNat).length =
      (prefixValue v.pending).toNat := by
    rw [List.length_take, List.length_drop]
    omega
  have filled : ¬ (v.pending.drop 4).take (prefixValue v.pending).toNat = [] := by
    intro empty
    rw [empty, List.length_nil] at body
    omega
  have first : v.data.parsed =
      v.parsed ++ [(v.pending.drop 4).take (prefixValue v.pending).toNat] := by
    rw [data, if_pos (by omega), text, if_neg (by omega)]
    dsimp only
    rw [if_pos (by rw [List.length_drop]; omega), if_neg filled]
    rfl
  have grows := rounds_parsed g n v.data
  rw [first] at grows
  have available : sizeofTcpRequest ≤ v.pending.length := by
    simp only [sizeofTcpRequest]
    omega
  left
  by_cases shutdown : noticeWord (v.pending.take sizeofTcpRequest) = systemShutdown
  · rw [control_shutdown f n v available shutdown]
    exact (grown _ _ _ grows).symm
  · intro same
    have record := control_grows f n v available shutdown
    rw [same] at record
    -- Two strings in one place, of 68 bytes and of 324 at least.
    have equal := List.prefix_of_prefix_length_le record grows (by simp)
    have size := congrArg List.length
      (List.singleton_inj.mp (List.append_cancel_left (equal.eq_of_length (by simp))))
    rw [body, List.length_take, Nat.min_eq_left available] at size
    simp only [sizeofTcpRequest] at size
    omega

/-- A body that is not there ends the loop; the record in its place does not, or ends
it in another way. -/
private theorem incomplete_apart (f g : Bytes → Bool) (n : Nat) (v : View)
    (prefixed : 4 ≤ v.pending.length) (positive : 0 ≤ prefixValue v.pending)
    (outside : ¬ 4 + prefixValue v.pending ≤ v.pending.length)
    (available : sizeofTcpRequest ≤ v.pending.length)
    (loud : ¬ (noticeWord (v.pending.take sizeofTcpRequest) = systemShutdown ∧ v.closed = true)) :
    Apart (v.control.rounds f n) (v.data.rounds g n) := by
  have cut : v.data.rounds g n = v.cutOff := by
    have short : ¬ (prefixValue v.pending).toNat ≤ (v.pending.drop 4).length := by
      rw [List.length_drop]
      omega
    rw [data, if_pos prefixed, text, if_neg (by omega), if_neg short,
      rounds_done g n _ (cutOff_status _)]
    rfl
  rw [cut]
  by_cases shutdown : noticeWord (v.pending.take sizeofTcpRequest) = systemShutdown
  · -- The shutdown ends the loop; on an open connection the body is waited for.
    have opened : v.closed = false := by
      cases closed : v.closed with
      | false => rfl
      | true => exact absurd ⟨shutdown, closed⟩ loud
    rw [control_shutdown f n v available shutdown, cutOff, opened]
    exact .inr (by simp)
  · exact .inl (grown _ _ _ (control_grows f n v available shutdown))

/-- Once misread, a message is never put right. -/
theorem misread_apart (f g : Bytes → Bool) (n : Nat) (v : View)
    (misread : Misreadable v.closed v.pending) :
    Apart (v.control.rounds f n) (v.data.rounds g n) := by
  obtain ⟨prefixed, head, long, reason⟩ := misread
  have far := prefixValue_of_head v.pending head long
  by_cases negative : prefixValue v.pending < 0
  · exact negative_apart f g n v prefixed negative
  · have positive : 0 ≤ prefixValue v.pending := by omega
    by_cases inside : 4 + prefixValue v.pending ≤ v.pending.length
    · exact complete_apart f g n v (far positive) inside
    · rcases reason with below | complete | ⟨available, loud⟩
      · exact absurd below negative
      · exact absurd complete inside
      · exact incomplete_apart f g n v prefixed positive inside available loud

/-- On a dripping stream the first message that can be misread is misread. -/
theorem dripping_apart (n : Nat) (v : View) (rest : Bytes) (running : v.status = .running)
    (enough : v.pending.length < n) (reached : FrameStart v.pending rest)
    (misread : Misreadable v.closed rest) :
    Apart (v.rounds firstByte n) (v.rounds exact n) := by
  induction n generalizing v with
  | zero => omega
  | succ n ih =>
    rw [rounds, rounds, round, round, if_pos running, if_pos running]
    by_cases here : Misreadable v.closed v.pending
    · obtain ⟨prefixed, head, long, reason⟩ := id here
      have nonempty : v.pending ≠ [] := by
        intro empty
        rw [empty] at head
        cases head
      -- One byte looks like a control message, the whole prefix does not.
      rw [message, message, if_neg nonempty, if_neg nonempty, firstByte, decide_eq_true head,
        if_pos rfl, exact, decide_eq_false long, if_neg Bool.false_ne_true]
      exact misread_apart firstByte exact n v here
    · rcases reached.cases_head with same | ⟨next, step, reached⟩
      · rw [same] at here
        exact absurd misread here
      · -- Both runs go on to the next message.
        have goes := message_next v running
        rw [step] at goes
        split at goes
        next still =>
          have shorter := nextFrame_shorter _ _ step
          cases goes
          have alike := message_alike v (firstByte v.pending)
            (by simpa [exact_iff, firstByte, head_iff] using fun value => by omega)
            (by simp [firstByte]) here
          rcases alike with same | ⟨_, stopped, _⟩
          · rw [same]
            apply ih _ still (by omega) reached
            rw [message_closed]
            exact misread
          · exact absurd still stopped
        · cases goes

theorem message_shorter (looks : Bool) (v : View)
    (still : (v.message looks).status = .running) :
    (v.message looks).pending.length < v.pending.length := by
  have record : 0 < sizeofTcpRequest := by decide
  unfold message control data text at still ⊢
  dsimp only at still ⊢
  split_ifs at still ⊢ <;>
    first
    | exact absurd still (cutOff_status _)
    | cases still
    | (simp only [parse, List.length_drop]; omega)

end View

/-! ## The whole loop -/

/-- The loop comes to an end, one way or the other, before it runs out of rounds. -/
theorem rounds_end (rt : RealText) (n : Nat) (c : Subscriber) (enough : c.sock.pending.length < n) :
    (c.rounds rt n).status ≠ .running := by
  induction n generalizing c with
  | zero => omega
  | succ n ih =>
    rw [Subscriber.rounds, Subscriber.round]
    by_cases running : c.status = .running
    · rw [if_pos running]
      by_cases still : (handleServerMessage rt c).status = .running
      · obtain ⟨view, _⟩ := handleServerMessage_view rt c
        -- A round that goes on has taken bytes, so there are enough rounds.
        have shorter := View.message_shorter (looksControl c.sock) (viewOf c)
          (by rw [← view]; exact still)
        rw [← view] at shorter
        exact ih _ (Nat.lt_of_lt_of_le shorter (Nat.le_of_lt_succ enough))
      · rw [rounds_stopped rt n _ still]
        exact still
    · rw [if_neg running, rounds_stopped rt n c running]
      exact running

theorem drain_ends (rt : RealText) (c : Subscriber) : (c.drain rt).status ≠ .running :=
  rounds_end rt _ c (Nat.lt_succ_self _)

theorem outcome_whole (rt : RealText) (bytes : Bytes) (closed : Bool) :
    outcome rt (.whole bytes closed) =
      ((View.rounds View.exact (bytes.length + 1) ⟨bytes, closed, [], .running⟩).parsed,
       (View.rounds View.exact (bytes.length + 1) ⟨bytes, closed, [], .running⟩).status) := by
  rw [← rounds_whole rt]
  rfl

theorem outcome_dripping (rt : RealText) (bytes : Bytes) (closed : Bool) :
    outcome rt (dripping bytes closed) =
      ((View.rounds firstByte (bytes.length + 1) ⟨bytes, closed, [], .running⟩).parsed,
       (View.rounds firstByte (bytes.length + 1) ⟨bytes, closed, [], .running⟩).status) := by
  have slow := rounds_steady rt (some 1) firstByte looksControl_dripping (bytes.length + 1)
    (.start (dripping bytes closed)) rfl
  rw [show View.mk bytes closed [] .running = viewOf (.start (dripping bytes closed)) from rfl, ← slow]
  rfl

theorem outcome_dripping_ne (rt : RealText) (bytes rest : Bytes) (closed : Bool)
    (reached : FrameStart bytes rest) (misread : Misreadable closed rest) :
    outcome rt (dripping bytes closed) ≠ outcome rt (.whole bytes closed) := by
  rw [outcome_whole, outcome_dripping]
  intro same
  rw [Prod.mk.injEq] at same
  have apart := View.dripping_apart (bytes.length + 1) ⟨bytes, closed, [], .running⟩ rest rfl
    (Nat.lt_succ_self _) reached misread
  rcases apart with parsed | status
  · exact parsed same.1
  · exact status same.2

/-- Decoding is independent of the segmentation exactly on the streams in which no
message can be misread. -/
theorem segmentation_iff (rt : RealText) (bytes : Bytes) (closed : Bool) :
    (∀ arrivals, outcome rt ⟨bytes, closed, arrivals⟩ = outcome rt (.whole bytes closed)) ↔
      Unmistakable closed bytes := by
  constructor
  · intro independent rest reached misread
    exact outcome_dripping_ne rt bytes rest closed reached misread (independent _)
  · intro safe arrivals
    have alike := rounds_alike rt (bytes.length + 1) (.start ⟨bytes, closed, arrivals⟩)
      ⟨bytes, closed, [], .running⟩ (.inl rfl) (fun _ => safe)
    rw [outcome_whole]
    rcases alike with same | ⟨_, _, parsed, status⟩
    · rw [← same]
      rfl
    · exact Prod.ext parsed status

/-- The frame of a payload of 318 bytes: its length, 324, is 68 in the low byte. -/
def longFrame : Bytes := wire 324 (List.replicate 324 0)

theorem longFrame_segmented :
    ¬ ∃ rt, outcome rt (dripping longFrame false) = outcome rt (.whole longFrame false) := by
  rintro ⟨rt, same⟩
  have size : longFrame.length = 328 := by
    rw [longFrame, wire, List.length_append, int32Bytes_length, List.length_take,
      List.length_replicate]
    rfl
  have length : View.prefixValue longFrame = 324 := by decide
  have misread : Misreadable false longFrame := by
    refine ⟨by omega, by decide, by decide, ?_⟩
    right; left
    rw [length, size]
    decide
  exact outcome_dripping_ne rt longFrame longFrame false .refl misread same

end PubSub.Properties
