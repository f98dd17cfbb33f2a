import PubSub.Properties.Bodies
import PubSub.Subscriber.Client

/-!
# The decoder, seen without the network

`View` is a subscriber without its arrival times. What `handle_server_message`
does to it depends on the arrival times through one bit only: whether the bytes
it peeked look like the length of a control message.
-/
namespace PubSub.Properties

open General

structure View where
  pending : Bytes
  closed : Bool
  parsed : List Bytes
  status : Status
  deriving DecidableEq

def viewOf (c : Subscriber) : View := ⟨c.sock.pending, c.sock.closed, c.parsed, c.status⟩

namespace View

/-- The stream ends within a message. -/
def cutOff (v : View) : View :=
  { v with pending := [], status := if v.closed then .stopped else .waiting }

def parse (v : View) (data : Bytes) : View :=
  { v with
    parsed := v.parsed ++ [data]
    status := if 6 ≤ data.length then v.status else .aborted }

/-- The system message a control message carries. -/
def noticeWord (bytes : Bytes) : Nat := leValue ((bytes.drop offsetMessage).take 4)

/-- The length prefix, as an `int`. -/
def prefixValue (bytes : Bytes) : Int := toInt32 (leValue (bytes.take 4))

def control (v : View) : View :=
  if sizeofTcpRequest ≤ v.pending.length then
    let msg := v.pending.take sizeofTcpRequest
    let rest := { v with pending := v.pending.drop sizeofTcpRequest }
    if noticeWord msg = systemShutdown then { rest with status := .stopped } else rest.parse msg
  else v.cutOff

/-- The text behind a length prefix. -/
def text (len : Int) (v : View) : View :=
  if len < 0 then { v with status := .aborted }
  else if len.toNat ≤ v.pending.length then
    let rest := { v with pending := v.pending.drop len.toNat }
    -- `data.empty()` is taken for the end of the connection.
    if v.pending.take len.toNat = [] then { rest with status := .stopped }
    else rest.parse (v.pending.take len.toNat)
  else v.cutOff

def data (v : View) : View :=
  if 4 ≤ v.pending.length then
    { v with pending := v.pending.drop 4 }.text (prefixValue v.pending)
  else v.cutOff

/-- One message, with the outcome of the peek as an argument. -/
def message (looksControl : Bool) (v : View) : View :=
  if v.pending = [] then v.cutOff else if looksControl then v.control else v.data

/-- What the peek tells when the whole prefix is there. -/
def exact (pending : Bytes) : Bool := prefixValue pending = sizeofTcpRequest

variable (looks : Bytes → Bool)

/-- A round in which the peek tells `looks` of the bytes that are still to be read. -/
def round (v : View) : View :=
  if v.status = .running then v.message (looks v.pending) else v

def rounds : Nat → View → View
  | 0, v => v
  | n + 1, v => rounds n (v.round looks)

theorem cutOff_status (v : View) : v.cutOff.status ≠ .running := by
  simp only [cutOff]
  cases v.closed <;> simp

theorem rounds_done (n : Nat) (v : View) (done : v.status ≠ .running) : v.rounds looks n = v := by
  induction n with
  | zero => rfl
  | succ n ih => rw [rounds, round, if_neg done, ih]

/-- The loop never starts again once it has left `running`. -/
theorem rounds_running (n : Nat) (v : View) (running : (v.rounds looks n).status = .running) :
    v.status = .running := by
  by_contra done
  rw [rounds_done looks n v done] at running
  exact done running

theorem rounds_add (m n : Nat) (v : View) :
    v.rounds looks (m + n) = (v.rounds looks m).rounds looks n := by
  induction m generalizing v with
  | zero => rw [Nat.zero_add, rounds]
  | succ m ih => rw [Nat.succ_add, rounds, ih, rounds]

/-- The loop stops in one way, however many rounds are looked at. -/
theorem rounds_final (m n : Nat) (v : View) (first : (v.rounds looks m).status ≠ .running)
    (second : (v.rounds looks n).status ≠ .running) : v.rounds looks m = v.rounds looks n := by
  rcases Nat.le_total m n with less | less
  · rw [← Nat.add_sub_cancel' less, rounds_add, rounds_done looks _ _ first]
  · rw [← Nat.add_sub_cancel' less, rounds_add, rounds_done looks _ _ second]

theorem round_parsed (v : View) : v.parsed <+: (v.round looks).parsed := by
  unfold round message control data text
  dsimp only
  split_ifs <;> simp [cutOff, parse]

theorem rounds_parsed (n : Nat) (v : View) : v.parsed <+: (v.rounds looks n).parsed := by
  induction n generalizing v with
  | zero => exact List.prefix_rfl
  | succ n ih => exact (round_parsed looks v).trans (ih _)

end View

/-! ## What the subscriber does to its view -/

variable (rt : RealText)

private theorem parse_view (c : Subscriber) (data : Bytes) :
    viewOf (c.parse rt data) = (viewOf c).parse data := by
  -- All that matters of `parse_input` is whether it gets through.
  simp only [viewOf, Subscriber.parse, View.parse, parseInput_isSome]

/-- A message the stream ends in uses the stream up. -/
private theorem short_view (c : Subscriber) (calls n : Nat) (short : c.sock.pending.length ≤ n) :
    viewOf { c with sock := c.sock.skip calls n,
                    status := if c.sock.closed then .stopped else .waiting } = (viewOf c).cutOff := by
  simp only [viewOf, View.cutOff, Incoming.skip_pending, Incoming.skip_closed,
    List.drop_eq_nil_of_le short]
  rfl

theorem control_view (c : Subscriber) :
    viewOf (handleControlMessage rt c) = (viewOf c).control ∧ c.sock.Later (handleControlMessage rt c).sock := by
  simp only [handleControlMessage]
  by_cases available : sizeofTcpRequest ≤ c.sock.pending.length
  · obtain ⟨calls, filled⟩ := recvAll_filled _ _ available
    have complete : sizeofTcpRequest ≤ (viewOf c).pending.length := available
    rw [filled, View.control, if_pos complete]
    dsimp only
    split
    next shutdown => exact ⟨(if_pos shutdown).symm, .skip c.sock calls _⟩
    next other => exact ⟨(parse_view rt _ _).trans (if_neg other).symm, .skip c.sock calls _⟩
  · obtain ⟨calls, short⟩ := recvAll_short _ _ (Nat.lt_of_not_le available)
    have incomplete : ¬ sizeofTcpRequest ≤ (viewOf c).pending.length := available
    rw [short, View.control, if_neg incomplete, ← short_view c calls _ (Nat.le_refl _)]
    cases c.sock.closed <;> exact ⟨rfl, .skip c.sock calls _⟩

theorem data_view (c : Subscriber) :
    viewOf (handleDataMessage rt c) = (viewOf c).data ∧ c.sock.Later (handleDataMessage rt c).sock := by
  simp only [handleDataMessage]
  by_cases available : 4 ≤ c.sock.pending.length
  · obtain ⟨calls, filled⟩ := recvAll_filled _ _ available
    have complete : 4 ≤ (viewOf c).pending.length := available
    rw [filled, View.data, if_pos complete]
    dsimp only
    rw [show toInt32 (leValue (c.sock.pending.take 4)) = View.prefixValue (viewOf c).pending from rfl]
    generalize View.prefixValue (viewOf c).pending = len
    -- Behind the prefix: a text of `len` bytes, or what there is of it.
    generalize behind : c.sock.skip calls 4 = rest
    have same : { viewOf c with pending := (viewOf c).pending.drop 4 } =
        viewOf { c with sock := rest } := by
      rw [← behind]; rfl
    have later : Incoming.Later c.sock rest := by
      rw [← behind]; exact .skip c.sock calls 4
    rw [same]
    simp only [recvString, View.text]
    by_cases negative : len < 0
    · rw [if_pos negative, if_pos negative]
      exact ⟨rfl, later⟩
    · rw [if_neg negative, if_neg negative]
      by_cases inside : len.toNat ≤ rest.pending.length
      · obtain ⟨more, body⟩ := recvAll_filled _ _ inside
        have complete : len.toNat ≤ (viewOf { c with sock := rest }).pending.length := inside
        rw [body, if_pos complete]
        dsimp only
        have later := later.trans (.skip rest more len.toNat)
        split
        next empty => exact ⟨(if_pos empty).symm, later⟩
        next nonempty => exact ⟨(parse_view rt _ _).trans (if_neg nonempty).symm, later⟩
      · obtain ⟨more, short⟩ := recvAll_short _ _ (Nat.lt_of_not_le inside)
        have incomplete : ¬ len.toNat ≤ (viewOf { c with sock := rest }).pending.length := inside
        rw [short, if_neg incomplete, ← short_view _ more _ (Nat.le_refl _)]
        cases rest.closed <;> exact ⟨rfl, later.trans (.skip rest more _)⟩
  · obtain ⟨calls, short⟩ := recvAll_short _ _ (Nat.lt_of_not_le available)
    have incomplete : ¬ 4 ≤ (viewOf c).pending.length := available
    rw [short, View.data, if_neg incomplete, ← short_view c calls _ (Nat.le_refl _)]
    cases c.sock.closed <;> exact ⟨rfl, .skip c.sock calls _⟩

/-- What the peek tells of the next message; it sees only what has arrived. -/
def looksControl (sock : Incoming) : Bool :=
  toInt32 (leValue (sock.pending.take (sock.ready 4))) = sizeofTcpRequest

/-- One call of `handle_server_message`, whatever has arrived by then. -/
theorem handleServerMessage_view (c : Subscriber) :
    viewOf (handleServerMessage rt c) = (viewOf c).message (looksControl c.sock) ∧
      c.sock.Later (handleServerMessage rt c).sock := by
  simp only [handleServerMessage, View.message]
  by_cases empty : c.sock.pending = []
  · have nothing : (viewOf c).pending = [] := empty
    have used : c.sock.pending.length = 0 := by rw [empty]; rfl
    rw [Incoming.peek_empty _ _ empty, if_pos nothing, ← short_view c 0 0 (Nat.le_of_eq used)]
    cases c.sock.closed <;> exact ⟨rfl, .skip c.sock 0 0⟩
  · have something : ¬ (viewOf c).pending = [] := empty
    rw [Incoming.peek_data _ _ empty, if_neg something]
    dsimp only
    have peeked : Incoming.Later c.sock (c.sock.skip 1 0) := .skip c.sock 1 0
    -- A peek takes no bytes, so the two branches start where the call started.
    have same : viewOf { c with sock := c.sock.skip 1 0 } = viewOf c := rfl
    split
    next control =>
      have seen : looksControl c.sock = true := decide_eq_true control
      obtain ⟨view, later⟩ := control_view rt { c with sock := c.sock.skip 1 0 }
      rw [if_pos seen, ← same]
      exact ⟨view, peeked.trans later⟩
    next plain =>
      have seen : ¬ looksControl c.sock = true := by simpa [looksControl] using plain
      obtain ⟨view, later⟩ := data_view rt { c with sock := c.sock.skip 1 0 }
      rw [if_neg seen, ← same]
      exact ⟨view, peeked.trans later⟩

theorem rounds_stopped (n : Nat) (c : Subscriber) (stopped : c.status ≠ .running) :
    c.rounds rt n = c := by
  induction n with
  | zero => rfl
  | succ n ih => rw [Subscriber.rounds, Subscriber.round, if_neg stopped, ih]

/-! ## On a network that always behaves in one way -/

section

variable (arrived : Option Nat) (looks : Bytes → Bool)
  (sees : ∀ sock : Incoming, sock.arrivals = (fun _ => arrived) →
    looksControl sock = looks sock.pending)
include sees

theorem round_steady (c : Subscriber) (steady : c.sock.arrivals = fun _ => arrived) :
    viewOf (c.round rt) = (viewOf c).round looks ∧
      (c.round rt).sock.arrivals = fun _ => arrived := by
  simp only [Subscriber.round, View.round]
  by_cases running : c.status = .running
  · obtain ⟨view, later⟩ := handleServerMessage_view rt c
    rw [sees _ steady] at view
    rw [if_pos running, if_pos (show (viewOf c).status = .running from running)]
    exact ⟨view, later.constant steady⟩
  · rw [if_neg running, if_neg (show ¬ (viewOf c).status = .running from running)]
    exact ⟨rfl, steady⟩

theorem rounds_steady (n : Nat) (c : Subscriber) (steady : c.sock.arrivals = fun _ => arrived) :
    viewOf (c.rounds rt n) = (viewOf c).rounds looks n := by
  induction n generalizing c with
  | zero => rfl
  | succ n ih =>
    obtain ⟨view, still⟩ := round_steady rt arrived looks sees c steady
    rw [Subscriber.rounds, ih _ still, view]
    rfl

end

theorem looksControl_whole (sock : Incoming) (here : sock.arrivals = fun _ => none) :
    looksControl sock = View.exact sock.pending := by
  -- The peek sees the whole prefix, or all there will ever be of it.
  have all : sock.ready 4 = min 4 sock.pending.length := by
    simp only [Incoming.ready]
    rw [here]
  unfold looksControl View.exact View.prefixValue
  rw [all, ← List.take_eq_take_min]

/-- The loop on a stream of which everything has arrived. -/
theorem rounds_whole (n : Nat) (bytes : Bytes) (closed : Bool) :
    viewOf ((Subscriber.start (.whole bytes closed)).rounds rt n) =
      View.rounds View.exact n ⟨bytes, closed, [], .running⟩ :=
  rounds_steady rt none View.exact looksControl_whole n _ rfl

end PubSub.Properties
