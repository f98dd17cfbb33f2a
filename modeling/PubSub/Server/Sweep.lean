import PubSub.Server.Loop

/-!
# The loop of the server

Follows `server()`: `poll`, a sweep over what it reports, and `poll` again, until the
console says `exit`. A sweep walks an index over a vector that its own handlers shorten
and lengthen. The handlers are those of the transition system; here they get the loop's
index. System calls succeed: one that fails makes the process end with `DIE`, wherever it
stands, and nothing is said about that here.
-/
namespace PubSub

open General

/-- `revents & (POLLERR | POLLHUP)` -/
def PollFd.failed (pfd : PollFd) : Bool := pfd.revents &&& (pollErr ||| pollHup) != 0

/-- `revents & POLLIN` -/
def PollFd.readable (pfd : PollFd) : Bool := pfd.revents &&& pollIn != 0

/-- What the system calls made in one round of the loop return, and what the addresses
of new objects are. A round uses some of it, depending on its entry. -/
structure Answers where
  datagram : Datagram
  stale : Nat → UInt8
  message : MessagePtr
  accepted : Fd
  peer : SockAddr
  line : Bytes
  /-- What `recv_all` reads; none is the end of the stream. -/
  received : Option TcpRequest
  fresh : ClientPtr

/-- `accept` returns an unused descriptor, and `new` an address that is not in use. -/
structure Answers.Fit (w : World) (a : Answers) : Prop where
  message : w.messageHeap.read a.message = none
  accepted : a.accepted ∉ w.openFds
  fresh : w.clientHeap.read a.fresh = none

/-- The loop in front of a round. -/
structure Turn where
  world : World
  idx : Nat
  /-- The entries handed to a handler so far, as they stood in the poll set. -/
  dispatched : List PollFd
  /-- `server()` has returned from inside the loop. -/
  exited : Bool

namespace Turn

variable (t : Turn)

/-- Behind `continue`: the loop's own `++idx`. -/
def pass : Turn := { t with idx := t.idx + 1 }

/-- Behind a handler that the loop does not correct its index for. -/
def advance (pfd : PollFd) (w : World) : Turn :=
  { t with world := w, idx := t.idx + 1, dispatched := t.dispatched ++ [pfd] }

/-- Behind `idx--`, which the loop's `++idx` takes back. -/
def stay (pfd : PollFd) (w : World) : Turn :=
  { t with world := w, dispatched := t.dispatched ++ [pfd] }

/-- The body of the loop for the entry at its index. None is undefined behaviour in a handler. -/
def serve (udpFd tcpListenFd : Fd) (a : Answers) (pfd : PollFd) : Option Turn :=
  if pfd.failed then
    if pfd.fd ≠ tcpListenFd ∧ pfd.fd ≠ udpFd ∧ pfd.fd ≠ stdinFileno then do
      let w ← handleClientDisconnect pfd.fd t.idx t.world
      some (t.stay pfd w)
    else some t.pass
  else if !pfd.readable then some t.pass
  else if pfd.fd = udpFd then do
    let w ← processUdpMessage a.stale a.message a.datagram t.world
    some (t.advance pfd w)
  else if pfd.fd = tcpListenFd then
    some (t.advance pfd (handleNewConnection a.accepted a.peer t.world))
  else if pfd.fd = stdinFileno then do
    let (w, leave) ← handleServerCommand a.line t.world
    some { t.advance pfd w with exited := leave }
  else match a.received with
    | none => do
      let w ← handleClientDisconnect pfd.fd t.idx t.world
      some (t.stay pfd w)
    | some request => do
      -- The index stays as it is, also when the request has removed its entry.
      let w ← handleClientRequest pfd.fd request t.idx a.fresh t.world
      some (t.advance pfd w)

/-- One round of the loop, as long as `idx < poll_set.size()`. -/
def iterate (udpFd tcpListenFd : Fd) (a : Answers) : Option Turn :=
  t.world.pollSet[t.idx]?.bind (t.serve udpFd tcpListenFd a)

end Turn

/-- The state behind `poll`, which has left these entries in the poll set. -/
def World.afterPoll (w : World) (polls : List PollFd) : World := { w with pollSet := polls }

/-- One execution of the loop. -/
def sweepSystem (udpFd tcpListenFd : Fd) (w : World) : System Turn Answers where
  start := ⟨w, 0, [], false⟩
  enabled t a := t.exited = false ∧ t.idx < t.world.pollSet.length ∧ a.Fit t.world
  step t a := t.iterate udpFd tcpListenFd a

instance (w : World) (a : Answers) : Decidable (a.Fit w) :=
  decidable_of_iff ((w.messageHeap.read a.message).isNone = true ∧ a.accepted ∉ w.openFds ∧
      (w.clientHeap.read a.fresh).isNone = true)
    ⟨fun ⟨message, accepted, fresh⟩ =>
        ⟨Option.isNone_iff_eq_none.mp message, accepted, Option.isNone_iff_eq_none.mp fresh⟩,
      fun ⟨message, accepted, fresh⟩ =>
        ⟨Option.isNone_iff_eq_none.mpr message, accepted, Option.isNone_iff_eq_none.mpr fresh⟩⟩

instance (udpFd tcpListenFd : Fd) (w : World) (t : Turn) (a : Answers) :
    Decidable ((sweepSystem udpFd tcpListenFd w).enabled t a) :=
  inferInstanceAs (Decidable (t.exited = false ∧ t.idx < t.world.pollSet.length ∧ a.Fit t.world))

/-! ## The main loop

Between two sweeps the index stands behind the last entry.
-/

inductive LoopEvent where
  /-- `poll` returns, with these entries in the poll set. -/
  | poll (polls : List PollFd)
  /-- A round of the `for` loop, with what its system calls return. -/
  | round (a : Answers)

/-- What the caller of `poll` fills in; `poll` itself writes `revents`. -/
def PollFd.asked (pfd : PollFd) : Fd × BitVec 16 := (pfd.fd, pfd.events)

namespace Turn

variable (udpFd tcpListenFd : Fd) (t : Turn)

/-- The round, if it gets through, does not leave the loop. -/
def Stays (a : Answers) : Prop := ∀ t' ∈ t.iterate udpFd tcpListenFd a, t'.exited = false

def Enabled : LoopEvent → Prop
  | .poll polls => t.world.pollSet.length ≤ t.idx ∧
      polls.map PollFd.asked = t.world.pollSet.map PollFd.asked
  | .round a => t.idx < t.world.pollSet.length ∧ a.Fit t.world ∧ t.Stays udpFd tcpListenFd a

instance (a : Answers) : Decidable (t.Stays udpFd tcpListenFd a) :=
  inferInstanceAs (Decidable (∀ t' ∈ t.iterate udpFd tcpListenFd a, t'.exited = false))

instance : DecidablePred (t.Enabled udpFd tcpListenFd)
  | .poll polls => inferInstanceAs (Decidable (t.world.pollSet.length ≤ t.idx ∧
      polls.map PollFd.asked = t.world.pollSet.map PollFd.asked))
  | .round a => inferInstanceAs (Decidable
      (t.idx < t.world.pollSet.length ∧ a.Fit t.world ∧ t.Stays udpFd tcpListenFd a))

def next : LoopEvent → Option Turn
  | .poll polls => some ⟨t.world.afterPoll polls, 0, [], false⟩
  | .round a => t.iterate udpFd tcpListenFd a

end Turn

/-- The loop as long as it runs: no system call has failed, and the round that leaves it is
not one of its steps. -/
def loopSystem (udpFd tcpListenFd : Fd) : System Turn LoopEvent where
  start := ⟨.start udpFd tcpListenFd, (World.start udpFd tcpListenFd).pollSet.length, [], false⟩
  enabled t e := t.Enabled udpFd tcpListenFd e
  step t e := t.next udpFd tcpListenFd e

instance (udpFd tcpListenFd : Fd) (t : Turn) (e : LoopEvent) :
    Decidable ((loopSystem udpFd tcpListenFd).enabled t e) :=
  inferInstanceAs (Decidable (t.Enabled udpFd tcpListenFd e))

end PubSub
