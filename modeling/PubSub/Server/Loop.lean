import PubSub.Server.Handlers
import PubSub.General.Runs

/-!
# The server as a transition system

One event is one handler call out of the loop in `server()`. The next event may
come from any descriptor in the poll set, so every order of events is a run.
-/
namespace PubSub

open General Std

inductive Event where
  /-- `accept` returns this descriptor, for a peer with this address. -/
  | accept (fd : Fd) (peer : SockAddr)
  /-- A complete request on a connection; `fresh` is what `new tcp_client_t` would return. -/
  | request (fd : Fd) (request : TcpRequest) (fresh : ClientPtr)
  /-- End of file, error or hang-up on a connection. -/
  | disconnect (fd : Fd)
  /-- A datagram, the old contents of the receive buffer and the address of the message. -/
  | datagram (d : Datagram) (stale : Nat → UInt8) (message : MessagePtr)

/-- The connections in the poll set, behind the UDP, listening and console entries. -/
def World.connections (w : World) : List Fd := (w.pollSet.drop 3).map PollFd.fd

/-- The index at which the loop finds a descriptor. -/
def World.indexOf (w : World) (fd : Fd) : Nat := w.pollSet.findIdx (·.fd = fd)

/-- The state of `server()` in front of its loop. -/
def World.start (udpFd tcpListenFd : Fd) : World where
  state := ⟨∅, ∅, ∅⟩
  pollSet := [⟨udpFd, pollIn, 0⟩, ⟨tcpListenFd, pollIn, 0⟩, ⟨stdinFileno, pollIn, 0⟩]
  clientHeap := .empty
  messageHeap := .empty
  openFds := [udpFd, tcpListenFd, stdinFileno]
  output := []

/-- When an event can happen: `accept` returns an unused descriptor, data arrives on
polled connections only, and `new` returns an address that is not in use. -/
def Event.Enabled (w : World) : Event → Prop
  | .accept fd _ => fd ∉ w.openFds
  | .request fd _ fresh => fd ∈ w.connections ∧ w.clientHeap.read fresh = none
  | .disconnect fd => fd ∈ w.connections
  | .datagram _ _ message => w.messageHeap.read message = none

instance Event.decidableEnabled (w : World) (e : Event) : Decidable (e.Enabled w) :=
  match e with
  | .accept fd _ => inferInstanceAs (Decidable (fd ∉ w.openFds))
  | .request fd _ fresh =>
    have := decidable_of_iff ((w.clientHeap.read fresh).isNone = true) Option.isNone_iff_eq_none
    inferInstanceAs (Decidable (fd ∈ w.connections ∧ w.clientHeap.read fresh = none))
  | .disconnect fd => inferInstanceAs (Decidable (fd ∈ w.connections))
  | .datagram _ _ message =>
    decidable_of_iff ((w.messageHeap.read message).isNone = true) Option.isNone_iff_eq_none

/-- The handler call the loop makes for an event. -/
def World.dispatch (w : World) : Event → Option World
  | .accept fd peer => some (handleNewConnection fd peer w)
  | .request fd request fresh => handleClientRequest fd request (w.indexOf fd) fresh w
  | .disconnect fd => handleClientDisconnect fd (w.indexOf fd) w
  | .datagram d stale message => processUdpMessage stale message d w

def serverSystem (udpFd tcpListenFd : Fd) : System World Event where
  start := .start udpFd tcpListenFd
  enabled w e := e.Enabled w
  step := World.dispatch

instance (udpFd tcpListenFd : Fd) (w : World) (e : Event) :
    Decidable ((serverSystem udpFd tcpListenFd).enabled w e) :=
  inferInstanceAs (Decidable (e.Enabled w))

abbrev History := List (Transition World Event)

end PubSub
