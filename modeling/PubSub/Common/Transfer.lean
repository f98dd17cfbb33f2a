import PubSub.General.Stream

/-! The transfer loops of `common.cpp`. -/
namespace PubSub

open General

/-- How a `recv_all` call ends. It returns `len` when the buffer is filled and 0
when the connection ends first; on an open connection it may wait for ever. -/
inductive RecvAll where
  | filled (buffer : Bytes) (rest : Incoming)
  | ended (rest : Incoming)
  | blocked (rest : Incoming)

namespace RecvAll

/-- What the call returns: `total`, or 0 for the end of the stream; none if it never does. -/
def returned : RecvAll → Option Nat
  | .filled buffer _ => some buffer.length
  | .ended _ => some 0
  | .blocked _ => none

/-- The buffer, where the call has filled it. -/
def handed : RecvAll → Option Bytes
  | .filled buffer _ => some buffer
  | .ended _ | .blocked _ => none

/-- The stream behind the call. -/
def rest : RecvAll → Incoming
  | .filled _ rest | .ended rest | .blocked rest => rest

end RecvAll

/-- The `while (total < len)` loop; `buffer` holds the `total` bytes received so far. -/
def recvLoop (len : Nat) : Nat → Bytes → Incoming → RecvAll
  | fuel, buffer, sock =>
    if buffer.length < len then
      match fuel with
      | 0 => .blocked sock
      | fuel + 1 =>
        match sock.recv (len - buffer.length) with
        | .data bytes rest => recvLoop len fuel (buffer ++ bytes) rest
        | .eof => .ended sock
        | .blocked => .blocked sock
    else .filled buffer sock

-- Every call of `recv` delivers at least one byte, so `len` rounds are enough.
def recvAll (len : Nat) (sock : Incoming) : RecvAll := recvLoop len len [] sock

private theorem recvLoop_filled (len fuel : Nat) (buffer : Bytes) (sock : Incoming)
    (enough : len ≤ buffer.length + fuel) (short : buffer.length ≤ len)
    (available : len ≤ buffer.length + sock.pending.length) :
    ∃ calls, recvLoop len fuel buffer sock =
      .filled (buffer ++ sock.pending.take (len - buffer.length))
        (sock.skip calls (len - buffer.length)) := by
  -- Each call takes a byte at least, so the fuel lasts as long as bytes are missing.
  induction fuel generalizing buffer sock with
  | zero =>
    have full : len - buffer.length = 0 := by omega
    refine ⟨0, ?_⟩
    simp only [recvLoop]
    simp [show ¬ buffer.length < len by omega, full]
  | succ fuel ih =>
    simp only [recvLoop]
    split
    next more =>
      have nonempty : sock.pending ≠ [] := by
        intro empty
        simp only [empty, List.length_nil] at available
        omega
      have positive := sock.ready_pos (len - buffer.length) (by omega) nonempty
      have bound := sock.ready_le (len - buffer.length)
      rw [Incoming.recv_data _ _ nonempty]
      generalize sock.ready (len - buffer.length) = k at positive bound
      have size : (buffer ++ sock.pending.take k).length = buffer.length + k := by
        simp only [List.length_append, List.length_take]; omega
      obtain ⟨calls, filled⟩ := ih (buffer ++ sock.pending.take k) (sock.skip 1 k)
        (by omega) (by omega) (by simp only [Incoming.skip_pending, List.length_drop]; omega)
      refine ⟨calls + 1, ?_⟩
      dsimp only
      rw [filled, size, Incoming.skip_skip]
      -- The two pieces are adjacent parts of the stream.
      have joined : sock.pending.take k ++ (sock.pending.drop k).take (len - (buffer.length + k)) =
          sock.pending.take (len - buffer.length) := by
        rw [← List.take_add]
        congr 1
        omega
      rw [Incoming.skip_pending, List.append_assoc, joined]
      congr 2
      omega
    next done =>
      refine ⟨0, ?_⟩
      simp [show len - buffer.length = 0 by omega]

private theorem recvLoop_short (len fuel : Nat) (buffer : Bytes) (sock : Incoming)
    (enough : len ≤ buffer.length + fuel)
    (missing : buffer.length + sock.pending.length < len) :
    ∃ calls, recvLoop len fuel buffer sock =
      if sock.closed then .ended (sock.skip calls sock.pending.length)
      else .blocked (sock.skip calls sock.pending.length) := by
  induction fuel generalizing buffer sock with
  | zero => omega
  | succ fuel ih =>
    unfold recvLoop
    rw [if_pos (by omega)]
    -- The loop leaves where the stream ends, in whatever call that is.
    by_cases empty : sock.pending = []
    · refine ⟨0, ?_⟩
      dsimp only
      rw [Incoming.recv_empty _ _ empty, empty, List.length_nil, Incoming.skip_zero]
      cases sock.closed <;> rfl
    · have positive := sock.ready_pos (len - buffer.length) (by omega) empty
      have bound := sock.ready_le (len - buffer.length)
      dsimp only
      rw [Incoming.recv_data _ _ empty]
      generalize sock.ready (len - buffer.length) = k at positive bound
      have size : (buffer ++ sock.pending.take k).length = buffer.length + k := by
        simp only [List.length_append, List.length_take]; omega
      obtain ⟨calls, used⟩ := ih (buffer ++ sock.pending.take k) (sock.skip 1 k) (by omega)
        (by simp only [Incoming.skip_pending, List.length_drop]; omega)
      refine ⟨calls + 1, ?_⟩
      dsimp only
      rw [used, Incoming.skip_pending, Incoming.skip_closed, Incoming.skip_skip, List.length_drop,
        Nat.add_sub_cancel' (by omega : k ≤ sock.pending.length)]

/-- However the stream arrives, `recv_all` hands over exactly its next `len` bytes. -/
theorem recvAll_filled (len : Nat) (sock : Incoming) (available : len ≤ sock.pending.length) :
    ∃ calls, recvAll len sock = .filled (sock.pending.take len) (sock.skip calls len) := by
  simpa [recvAll] using recvLoop_filled len len [] sock (by simp) (by simp) (by simpa using available)

/-- A stream that is too short is used up, and no bytes are handed over. -/
theorem recvAll_short (len : Nat) (sock : Incoming) (missing : sock.pending.length < len) :
    ∃ calls, recvAll len sock =
      if sock.closed then .ended (sock.skip calls sock.pending.length)
      else .blocked (sock.skip calls sock.pending.length) :=
  recvLoop_short len len [] sock (by simp) (by simpa using missing)

/-! ## `send_all` -/

/-- The `while (total < len)` loop; none when it runs out of fuel. -/
def sendLoop (buffer : Bytes) (len : Nat) : Nat → Nat → Outgoing → Option (Nat × Outgoing)
  | fuel, total, sock =>
    if total < len then
      match fuel with
      | 0 => none
      | fuel + 1 =>
        match sock.send ((buffer.drop total).take (len - total)) with
        | (rc, rest) => sendLoop buffer len fuel (total + rc) rest
    else some (total, sock)

-- Every call of `send` takes at least one byte, so `len` rounds are enough.
def sendAll (buffer : Bytes) (len : Nat) (sock : Outgoing) : Option (Nat × Outgoing) :=
  sendLoop buffer len len 0 sock

private theorem sendLoop_total (buffer : Bytes) (len fuel total : Nat) (sock : Outgoing)
    (inside : len ≤ buffer.length) (enough : len ≤ total + fuel) (short : total ≤ len) :
    ∃ calls, sendLoop buffer len fuel total sock =
      some (len, sock.push calls ((buffer.drop total).take (len - total))) := by
  induction fuel generalizing total sock with
  | zero =>
    obtain rfl : total = len := by omega
    refine ⟨0, ?_⟩
    simp [sendLoop]
  | succ fuel ih =>
    unfold sendLoop
    split
    next more =>
      have offered : ((buffer.drop total).take (len - total)).length = len - total := by
        rw [List.length_take, List.length_drop]
        omega
      have positive := sock.taken_pos (len - total) (by omega)
      have bound := sock.taken_le (len - total)
      simp only [Outgoing.send, offered]
      generalize sock.taken (len - total) = rc at positive bound
      obtain ⟨calls, sent⟩ := ih (total + rc)
        (sock.push 1 (((buffer.drop total).take (len - total)).take rc)) (by omega) (by omega)
      refine ⟨calls + 1, ?_⟩
      -- The two pieces are adjacent parts of the buffer.
      have joined : (buffer.drop total).take rc ++ (buffer.drop (total + rc)).take (len - (total + rc)) =
          (buffer.drop total).take (len - total) := by
        rw [← List.drop_drop, ← List.take_add]
        congr 1
        omega
      rw [sent, Outgoing.push_push, List.take_take, Nat.min_eq_left bound, joined]
    next done =>
      obtain rfl : total = len := by omega
      exact ⟨0, by simp⟩

/-- However little a call takes, `send_all` returns `len` when all of it has been accepted. -/
theorem sendAll_total (buffer : Bytes) (len : Nat) (sock : Outgoing) (inside : len ≤ buffer.length) :
    ∃ calls, sendAll buffer len sock = some (len, sock.push calls (buffer.take len)) := by
  simpa [sendAll] using sendLoop_total buffer len len 0 sock inside (by simp) (by simp)

end PubSub
