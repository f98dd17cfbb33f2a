import PubSub.Properties.Decoder
import PubSub.Server.State

/-!
# Framing between server and subscriber

The server puts a length in front of every body, the subscriber tells control
messages from data by that length. A body of 68 bytes has the length of a
control message, and only such a body is misread.
-/
namespace PubSub.Properties

open General

/-- What the server writes for one datagram. -/
def frame (d : Datagram) : Bytes := wire d.message.len d.message.buff

def stream (ds : List Datagram) : Bytes := ds.flatMap frame

/-- The subscriber gets through the whole stream of these datagrams, still running,
and has passed exactly their bodies to `parse_input`. -/
def Decodes (rt : RealText) (ds : List Datagram) (closed : Bool) : Prop :=
  ∃ n, viewOf ((Subscriber.start (.whole (stream ds) closed)).rounds rt n) =
    ⟨[], closed, ds.map Datagram.body, .running⟩

theorem frame_eq (d : Datagram) :
    frame d = int32Bytes ((6 + d.payload.length : Nat) : Int) ++ d.body := by
  have len : d.message.len = ((6 + d.payload.length : Nat) : Int) := by
    simp only [Datagram.message]
    push_cast
    rfl
  have buff : d.message.buff = d.body := rfl
  rw [frame, wire, len, buff, Int.toNat_natCast, List.take_of_length_le (by simp)]

theorem prefixValue_frame (d : Datagram) (rest : Bytes) :
    View.prefixValue (frame d ++ rest) = (6 + d.payload.length : Nat) := by
  -- 3005 bytes at most, far below the range of an `int`
  have bound : d.payload.length ≤ 2999 := d.fits
  have small : 6 + d.payload.length < 2 ^ 31 := by omega
  have four : (frame d ++ rest).take 4 = int32Bytes ((6 + d.payload.length : Nat) : Int) := by
    rw [frame_eq, List.append_assoc, List.take_left' (int32Bytes_length _)]
  rw [View.prefixValue, four, leValue_int32Bytes _ small, toInt32_small _ small]

theorem frame_length (d : Datagram) : (frame d).length = 4 + d.body.length := by
  rw [frame_eq, List.length_append, int32Bytes_length]

/-- A body of any other length than 68 is decoded as it was sent. -/
theorem round_frame (d : Datagram) (rest : Bytes) (closed : Bool) (parsed : List Bytes)
    (plain : d.payload.length ≠ 62) :
    View.round View.exact ⟨frame d ++ rest, closed, parsed, .running⟩ =
      ⟨rest, closed, parsed ++ [d.body], .running⟩ := by
  have body := d.body_length
  have nonempty : frame d ++ rest ≠ [] := by
    rw [frame_eq]
    simp [int32Bytes, leBytes]
  have front : 4 ≤ (frame d ++ rest).length := by
    rw [List.length_append, frame_length]
    omega
  have behind : (frame d ++ rest).drop 4 = d.body ++ rest := by
    rw [frame_eq, List.append_assoc, List.drop_left' (int32Bytes_length _)]
  -- A length other than 68 is data to the peek.
  have data : View.exact (frame d ++ rest) = false := by
    simp only [View.exact, prefixValue_frame, sizeofTcpRequest, decide_eq_false_iff_not]
    omega
  have filled : d.body ≠ [] := by
    apply List.ne_nil_of_length_pos
    omega
  rw [View.round, if_pos rfl, View.message, if_neg nonempty, data, if_neg Bool.false_ne_true,
    View.data, if_pos front]
  simp only [prefixValue_frame, behind]
  rw [View.text, if_neg (by omega), Int.toNat_natCast, ← body, if_pos (by simp)]
  simp only [List.take_left, List.drop_left, if_neg filled, View.parse]
  rw [if_pos (by omega)]

theorem rounds_stream (ds : List Datagram) (rest : Bytes) (closed : Bool) (parsed : List Bytes)
    (plain : ∀ d ∈ ds, d.payload.length ≠ 62) :
    View.rounds View.exact ds.length ⟨stream ds ++ rest, closed, parsed, .running⟩ =
      ⟨rest, closed, parsed ++ ds.map Datagram.body, .running⟩ := by
  induction ds generalizing parsed with
  | nil => simp [View.rounds, stream]
  | cons d ds ih =>
    rw [List.forall_mem_cons] at plain
    -- One frame a round.
    have first := round_frame d (stream ds ++ rest) closed parsed plain.1
    rw [List.length_cons, View.rounds, stream, List.flatMap_cons, ← stream, List.append_assoc, first,
      ih _ plain.2]
    simp

/-! ## A misread body is never made up for -/

/-- The bytes still to come, and those that sending the parsed bodies takes. -/
def View.weight (v : View) : Nat := v.pending.length + (v.parsed.map (4 + ·.length)).sum

theorem View.weight_parse (v : View) (data : Bytes) :
    (v.parse data).weight = v.weight + (4 + data.length) := by
  simp [View.weight, View.parse]
  omega

/-- A control message counts for four bytes more than it takes. -/
theorem View.weight_control (v : View) (running : v.control.status = .running) :
    v.weight + 4 ≤ v.control.weight := by
  unfold View.control at running ⊢
  split at running
  next available =>
    rw [if_pos available]
    dsimp only at running ⊢
    split at running
    · cases running
    next other =>
      -- 68 bytes are taken, and a parsed body of 68 bytes weighs 72.
      rw [if_neg other, View.weight_parse]
      simp only [View.weight, List.length_take, List.length_drop]
      omega
  · exact absurd running (View.cutOff_status _)

theorem View.weight_data (v : View) (running : v.data.status = .running) :
    v.weight ≤ v.data.weight := by
  unfold View.data View.text at running ⊢
  split at running
  next prefixed =>
    rw [if_pos prefixed]
    split at running
    · cases running
    next positive =>
      rw [if_neg positive]
      dsimp only at running ⊢
      split at running
      next inside =>
        rw [if_pos inside]
        split at running
        · cases running
        next nonempty =>
          rw [if_neg nonempty, View.weight_parse]
          simp only [View.weight, List.length_take, List.length_drop] at inside ⊢
          omega
      · exact absurd running (View.cutOff_status _)
  · exact absurd running (View.cutOff_status _)

variable (looks : Bytes → Bool)

theorem View.weight_round (v : View) (running : (v.round looks).status = .running) :
    v.weight ≤ (v.round looks).weight := by
  simp only [View.round, View.message] at running ⊢
  split at running
  next still =>
    rw [if_pos still]
    split at running
    · exact absurd running (View.cutOff_status _)
    next nonempty =>
      rw [if_neg nonempty]
      split at running
      next control =>
        rw [if_pos control]
        have grown := View.weight_control v running
        omega
      next data =>
        rw [if_neg data]
        exact View.weight_data v running
  next done => rw [if_neg done]

theorem View.weight_rounds (n : Nat) (v : View) (running : (v.rounds looks n).status = .running) :
    v.weight ≤ (v.rounds looks n).weight := by
  induction n generalizing v with
  | zero => exact Nat.le_refl _
  | succ n ih =>
    have here := View.weight_round looks v (View.rounds_running looks n _ running)
    exact here.trans (ih _ running)

theorem weight_stream (ds : List Datagram) (closed : Bool) (parsed : List Bytes) :
    View.weight ⟨stream ds, closed, parsed, .running⟩ =
      View.weight ⟨[], closed, parsed ++ ds.map Datagram.body, .running⟩ := by
  induction ds generalizing parsed with
  | nil => simp [stream]
  | cons d ds ih =>
    -- A frame weighs as much as its body does once it has been parsed.
    have tail := ih (parsed ++ [d.body])
    simp only [View.weight, stream, List.flatMap_cons, List.length_append, frame_length,
      List.map_append, List.map_cons, List.map_nil, List.sum_append, List.sum_cons, List.sum_nil,
      List.length_nil, List.map_map] at tail ⊢
    omega

/-- From a frame of 72 bytes on, the bodies come out wrong for good. -/
theorem rounds_misread (n : Nat) (d : Datagram) (ds : List Datagram) (closed : Bool)
    (parsed : List Bytes) (misread : d.payload.length = 62) :
    View.rounds View.exact n ⟨stream (d :: ds), closed, parsed, .running⟩ ≠
      ⟨[], closed, parsed ++ (d :: ds).map Datagram.body, .running⟩ := by
  intro decoded
  have whole := weight_stream (d :: ds) closed parsed
  have nonempty : stream (d :: ds) ≠ [] := by
    apply List.ne_nil_of_length_pos
    rw [stream, List.flatMap_cons, List.length_append, frame_length]
    omega
  cases n with
  | zero =>
    simp only [View.rounds, View.mk.injEq] at decoded
    exact nonempty decoded.1
  | succ n =>
    rw [View.rounds] at decoded
    have control : View.round View.exact ⟨stream (d :: ds), closed, parsed, .running⟩ =
        View.control ⟨stream (d :: ds), closed, parsed, .running⟩ := by
      have seen : View.exact (stream (d :: ds)) = true := by
        simp [View.exact, stream, prefixValue_frame, misread, sizeofTcpRequest]
      rw [View.round, if_pos rfl, View.message, if_neg nonempty, seen, if_pos rfl]
    rw [control] at decoded
    -- The first round gains four bytes that no later round gives back.
    have running : (View.rounds View.exact n (View.control ⟨stream (d :: ds), closed, parsed, .running⟩)).status =
        .running := by rw [decoded]
    have grown := View.weight_control _ (View.rounds_running View.exact n _ running)
    have kept := View.weight_rounds View.exact n _ running
    rw [decoded] at kept
    omega

theorem rounds_decoded (n : Nat) (ds : List Datagram) (closed : Bool) (parsed : List Bytes)
    (decoded : View.rounds View.exact n ⟨stream ds, closed, parsed, .running⟩ =
      ⟨[], closed, parsed ++ ds.map Datagram.body, .running⟩) :
    ∀ d ∈ ds, d.payload.length ≠ 62 := by
  induction ds generalizing n parsed with
  | nil => simp
  | cons d ds ih =>
    by_cases misread : d.payload.length = 62
    · exact absurd decoded (rounds_misread n d ds closed parsed misread)
    · rw [List.forall_mem_cons]
      refine ⟨misread, ?_⟩
      -- The first round takes the first frame, the others the rest of the stream.
      cases n with
      | zero =>
        have length := congrArg (fun v => v.pending.length) decoded
        simp [View.rounds, stream, frame_length] at length
      | succ n =>
        apply ih n (parsed ++ [d.body])
        rw [View.rounds, stream, List.flatMap_cons, ← stream,
          round_frame d _ closed parsed misread] at decoded
        simpa using decoded

private theorem decodes_view (rt : RealText) (ds : List Datagram) (closed : Bool) :
    Decodes rt ds closed ↔
      ∃ n, View.rounds View.exact n ⟨stream ds, closed, [], .running⟩ =
        ⟨[], closed, ds.map Datagram.body, .running⟩ := by
  simp only [Decodes, rounds_whole]

/-- The round trip works for exactly the sequences without a payload of 62 bytes. -/
theorem decodes_iff (rt : RealText) (ds : List Datagram) (closed : Bool) :
    Decodes rt ds closed ↔ ∀ d ∈ ds, d.payload.length ≠ 62 := by
  rw [decodes_view]
  constructor
  · rintro ⟨n, decoded⟩
    exact rounds_decoded n ds closed [] decoded
  · intro plain
    have decoded := rounds_stream ds [] closed [] plain
    rw [List.append_nil] at decoded
    exact ⟨ds.length, decoded⟩

def sixtyTwoZeros : Datagram := ⟨default, List.replicate 62 0, by decide⟩

theorem sixtyTwoZeros_misread : ¬ ∃ rt, Decodes rt [sixtyTwoZeros] false := by
  rintro ⟨rt, decoded⟩
  obtain ⟨n, decoded⟩ := (decodes_view rt _ _).mp decoded
  exact rounds_misread n sixtyTwoZeros [] false [] rfl decoded

end PubSub.Properties
