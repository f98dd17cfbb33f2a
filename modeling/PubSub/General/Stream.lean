import PubSub.General.Bytes

/-!
# A byte stream that arrives in pieces

The two ends of a connected stream socket. How much of the stream has arrived
when a call is made is up to the network: `arrivals i` bounds what the `i`-th
call from now can hand over, `none` meaning that everything is there. So is how
much a call takes of what it is to send.
-/
namespace PubSub.General

structure Incoming where
  pending : Bytes
  /-- The peer has closed the connection behind the pending bytes. -/
  closed : Bool
  arrivals : Nat → Option Nat

/-- What one `recv` call reports. -/
inductive Received where
  | data (bytes : Bytes) (rest : Incoming)
  | eof
  | blocked

namespace Incoming

/-- A stream of which everything has arrived. -/
def whole (pending : Bytes) (closed : Bool) : Incoming := ⟨pending, closed, fun _ => none⟩

/-- How many of the `asked` bytes the next call hands over: at least one. -/
def ready (s : Incoming) (asked : Nat) : Nat :=
  match s.arrivals 0 with
  | none => min asked s.pending.length
  | some arrived => min (max 1 arrived) (min asked s.pending.length)

/-- The stream behind its first `n` bytes, `calls` calls later. -/
def skip (s : Incoming) (calls n : Nat) : Incoming :=
  ⟨s.pending.drop n, s.closed, fun i => s.arrivals (i + calls)⟩

/-- `recv(fd, buffer, asked, 0)`. -/
def recv (s : Incoming) (asked : Nat) : Received :=
  if s.pending = [] then if s.closed then .eof else .blocked
  else .data (s.pending.take (s.ready asked)) (s.skip 1 (s.ready asked))

/-- `recv(fd, buffer, asked, MSG_PEEK)`: the bytes stay in the stream. -/
def peek (s : Incoming) (asked : Nat) : Received :=
  if s.pending = [] then if s.closed then .eof else .blocked
  else .data (s.pending.take (s.ready asked)) (s.skip 1 0)

@[simp] theorem skip_pending (s : Incoming) (calls n : Nat) :
    (s.skip calls n).pending = s.pending.drop n := rfl

@[simp] theorem skip_closed (s : Incoming) (calls n : Nat) :
    (s.skip calls n).closed = s.closed := rfl

@[simp] theorem skip_skip (s : Incoming) (a b m n : Nat) :
    (s.skip a m).skip b n = s.skip (b + a) (m + n) := by
  simp only [skip, List.drop_drop, Nat.add_assoc]

@[simp] theorem skip_zero (s : Incoming) : s.skip 0 0 = s := rfl

/-- Calls on `t` meet the arrival times of calls on `s`, shifted by those made in between. -/
def Later (s t : Incoming) : Prop := ∃ calls, t.arrivals = fun i => s.arrivals (i + calls)

theorem Later.skip (s : Incoming) (calls n : Nat) : Later s (s.skip calls n) := ⟨calls, rfl⟩

theorem Later.trans {a b c : Incoming} (first : Later a b) (second : Later b c) : Later a c := by
  rcases first with ⟨m, first⟩
  rcases second with ⟨n, second⟩
  refine ⟨n + m, ?_⟩
  rw [second, first]
  simp only [Nat.add_assoc]

/-- A network that always behaves in one way goes on to do so. -/
theorem Later.constant {s t : Incoming} {arrived : Option Nat} (later : Later s t)
    (same : s.arrivals = fun _ => arrived) : t.arrivals = fun _ => arrived := by
  rcases later with ⟨calls, shifted⟩
  rw [shifted, same]

theorem ready_le (s : Incoming) (asked : Nat) : s.ready asked ≤ min asked s.pending.length := by
  simp only [ready]
  split
  · exact Nat.le_refl _
  · exact Nat.min_le_right _ _

theorem ready_pos (s : Incoming) (asked : Nat) (wanted : 0 < asked) (nonempty : s.pending ≠ []) :
    0 < s.ready asked := by
  have some_pending : 0 < s.pending.length := List.length_pos_iff.mpr nonempty
  simp only [ready]
  split <;> omega

theorem peek_data (s : Incoming) (asked : Nat) (nonempty : s.pending ≠ []) :
    s.peek asked = .data (s.pending.take (s.ready asked)) (s.skip 1 0) := if_neg nonempty

theorem recv_data (s : Incoming) (asked : Nat) (nonempty : s.pending ≠ []) :
    s.recv asked = .data (s.pending.take (s.ready asked)) (s.skip 1 (s.ready asked)) :=
  if_neg nonempty

theorem recv_empty (s : Incoming) (asked : Nat) (empty : s.pending = []) :
    s.recv asked = if s.closed then .eof else .blocked := if_pos empty

theorem peek_empty (s : Incoming) (asked : Nat) (empty : s.pending = []) :
    s.peek asked = if s.closed then .eof else .blocked := if_pos empty

end Incoming

/-! ## The sending end -/

structure Outgoing where
  accepted : Bytes
  /-- A bound on what the `i`-th call from now takes. -/
  takes : Nat → Nat

namespace Outgoing

/-- How many of the `offered` bytes the next call takes: at least one. -/
def taken (s : Outgoing) (offered : Nat) : Nat := min (max 1 (s.takes 0)) offered

/-- The end with more bytes accepted, `calls` calls later. -/
def push (s : Outgoing) (calls : Nat) (bytes : Bytes) : Outgoing :=
  ⟨s.accepted ++ bytes, fun i => s.takes (i + calls)⟩

/-- `send(fd, data, data.length, 0)`: what it returns, and the end behind it. -/
def send (s : Outgoing) (data : Bytes) : Nat × Outgoing :=
  (s.taken data.length, s.push 1 (data.take (s.taken data.length)))

@[simp] theorem push_accepted (s : Outgoing) (calls : Nat) (bytes : Bytes) :
    (s.push calls bytes).accepted = s.accepted ++ bytes := rfl

@[simp] theorem push_push (s : Outgoing) (a b : Nat) (first second : Bytes) :
    (s.push a first).push b second = s.push (b + a) (first ++ second) := by
  simp only [push, List.append_assoc, Nat.add_assoc]

@[simp] theorem push_nil (s : Outgoing) : s.push 0 [] = s := by
  simp only [push, List.append_nil, Nat.add_zero]

theorem taken_le (s : Outgoing) (offered : Nat) : s.taken offered ≤ offered := Nat.min_le_right _ _

theorem taken_pos (s : Outgoing) (offered : Nat) (wanted : 0 < offered) : 0 < s.taken offered := by
  rw [taken]
  omega

end Outgoing

/-! ## Two writers of one stream -/

/-- What two writers have written together: what either has written, in its own order. -/
inductive Woven {α : Type} : List α → List α → List α → Prop
  | nil : Woven [] [] []
  | left {xs ys zs : List α} (x : α) : Woven xs ys zs → Woven (xs ++ [x]) ys (zs ++ [x])
  | right {xs ys zs : List α} (y : α) : Woven xs ys zs → Woven xs (ys ++ [y]) (zs ++ [y])

theorem Woven.append_right {α : Type} {xs ys zs : List α} (woven : Woven xs ys zs) (more : List α) :
    Woven xs (ys ++ more) (zs ++ more) := by
  induction more generalizing ys zs with
  | nil => simpa using woven
  | cons y more ih => simpa using ih (woven.right y)

end PubSub.General
