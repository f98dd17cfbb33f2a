import PubSub.Server.Loop
import PubSub.Subscriber.Loop

/-!
# Server, subscribers and the connections between them

Any number of subscriber processes, each with one connection to the server. A step is a
handler call of one of the programs or something the network does, and steps come in any
order. A call that blocks takes its step when it gets through; what had arrived when it
peeked is up to the network, as is what is lost with a connection.
-/
namespace PubSub

open General

/-- The server's end of a connection. -/
inductive Link where
  /-- Connected, but `accept` has not returned it yet. -/
  | backlog
  | served (fd : Fd)
  | shut
  deriving DecidableEq, Repr

/-- A subscriber process and its connection. -/
structure Node where
  process : Process
  link : Link
  /-- The bytes in flight to the server, and those in flight from it. -/
  up : Bytes
  down : Bytes
  /-- The requests the server has read from this connection, oldest first. -/
  taken : List TcpRequest
  /-- The bodies the server has written to this connection, oldest first. -/
  posted : List Bytes

/-- The bytes an effect of the server writes to a descriptor. -/
def Effect.bytesOn (fd : Fd) : Effect → Bytes
  | .deliver _ dest len buff => if dest = fd then wire len buff else []
  | .sendNotice dest record => if dest = fd then record else []
  | .close _ | .print _ => []

/-- The body among them. -/
def Effect.bodyOn (fd : Fd) : Effect → Option Bytes
  | .deliver _ dest len buff => if dest = fd then some (buff.take len.toNat) else none
  | .sendNotice _ _ | .close _ | .print _ => none

/-- What a subscriber does, or happens to its connection. -/
inductive NodeEvent where
  | poll (input socket : Bool)
  /-- `fgets` reads a line, or none at the end of standard input. -/
  | input (line : Option Bytes)
  | message (arrivals : Nat → Option Nat)
  /-- The process ends: a signal, a failing call. -/
  | quit
  /-- Of what was in flight from a connection that is closed, only the front arrives. -/
  | cut (kept : Nat)

/-- The subscriber's own steps. Others can end its process, or cut off what is in flight. -/
def NodeEvent.Own : NodeEvent → Prop
  | .poll _ _ | .input _ | .message _ => True
  | .quit | .cut _ => False

/-- The calls of `handle_server_message` in a step. -/
def NodeEvent.calls : NodeEvent → Nat
  | .message _ => 1
  | .poll _ _ | .input _ | .quit | .cut _ => 0

namespace Node

variable (n : Node)

def start (p : Process) : Node := ⟨p, .backlog, p.sent.flatten, [], [], []⟩

/-- What the subscriber can still read when it calls `recv`, with these arrival times. -/
def incoming (arrivals : Nat → Option Nat) : Incoming := ⟨n.down, n.link = .shut, arrivals⟩

/-- `handle_user_input` in the sweep. None is a write behind a record. -/
def input (line : Option Bytes) (socketReady : Bool) : Option Node :=
  match line with
  | none => some { n with process := n.process.next socketReady }
  | some line => do
    let result ← handleUserInput line n.process.id
    some { n with
      process := (n.process.obey result).next socketReady
      up := n.up ++ result.sent.flatten }

/-- `handle_server_message` in the sweep. -/
def message (rt : RealText) (arrivals : Nat → Option Nat) : Node :=
  let c := handleServerMessage rt (n.process.reader (n.incoming arrivals))
  { n with process := (n.process.heed rt c).settle, down := c.sock.pending }

def step (rt : RealText) : NodeEvent → Option Node
  | .poll input socket => some { n with process := n.process.poll input socket }
  | .input line =>
    match n.process.phase with
    | .atInput ready => n.input line ready
    | .atPoll | .atSocket | .left => none
  | .message arrivals => some (n.message rt arrivals)
  | .quit => some { n with process := { n.process with phase := .left } }
  | .cut kept => some { n with down := n.down.take kept }

/-- When an event can happen. A call that would have to wait has not happened yet. -/
def Ready (rt : RealText) : NodeEvent → Prop
  | .poll _ socket => n.process.phase = .atPoll ∧ (socket = true → n.down ≠ [] ∨ n.link = .shut)
  | .input _ => n.process.phase = .atInput true ∨ n.process.phase = .atInput false
  | .message arrivals => n.process.phase = .atSocket ∧
      (n.message rt arrivals).process.status ≠ .waiting
  | .quit => n.process.phase ≠ .left
  | .cut _ => n.link = .shut

instance (rt : RealText) : DecidablePred (n.Ready rt)
  | .poll _ socket => inferInstanceAs (Decidable
      (n.process.phase = .atPoll ∧ (socket = true → n.down ≠ [] ∨ n.link = .shut)))
  | .input _ => inferInstanceAs (Decidable
      (n.process.phase = .atInput true ∨ n.process.phase = .atInput false))
  | .message arrivals => inferInstanceAs (Decidable
      (n.process.phase = .atSocket ∧ (n.message rt arrivals).process.status ≠ .waiting))
  | .quit => inferInstanceAs (Decidable (n.process.phase ≠ .left))
  | .cut _ => inferInstanceAs (Decidable (n.link = .shut))

/-- One request of 68 bytes, once `recv_all` has it; none as long as it is incomplete. -/
def request : Option TcpRequest :=
  if enough : sizeofTcpRequest ≤ n.up.length then
    some ⟨n.up.take sizeofTcpRequest, by simpa using enough⟩
  else none

/-- The connection behind the server's `recv_all`. -/
def received (r : TcpRequest) : Node :=
  { n with up := n.up.drop sizeofTcpRequest, taken := n.taken ++ [r] }

/-- The connection behind a step of the server that had these effects. -/
def relay (after : World) (effects : List Effect) : Node :=
  match n.link with
  | .served fd =>
    { n with
      down := n.down ++ effects.flatMap (Effect.bytesOn fd)
      posted := n.posted ++ effects.filterMap (Effect.bodyOn fd)
      link := if fd ∈ after.connections then .served fd else .shut }
  | .backlog | .shut => n

end Node

structure Network where
  server : World
  nodes : Nat → Option Node

inductive NetworkEvent where
  /-- Process `i` starts, connects and sends its CONNECT. -/
  | launch (i : Nat) (id : Bytes)
  | node (i : Nat) (e : NodeEvent)
  | accept (i : Nat) (fd : Fd) (peer : SockAddr)
  | request (i : Nat) (fresh : ClientPtr)
  /-- The server finds the connection of `i` at its end or broken. -/
  | lose (i : Nat)
  | datagram (d : Datagram) (stale : Nat → UInt8) (message : MessagePtr)

namespace Network

variable (net : Network)

def start (udpFd tcpListenFd : Fd) : Network := ⟨.start udpFd tcpListenFd, fun _ => none⟩

def set (i : Nat) (n : Node) : Network := { net with nodes := Function.update net.nodes i (some n) }

/-- The effects of the server's step to this state go out on the connections. -/
def broadcast (after : World) : Network :=
  ⟨after, fun i => (net.nodes i).map fun n => n.relay after (after.output.drop net.server.output.length)⟩

def serve (e : Event) : Option Network := (net.server.dispatch e).map net.broadcast

/-- The event of the server that a step of the network is, if any. -/
def serverEvent : NetworkEvent → Option Event
  | .launch _ _ | .node _ _ => none
  | .accept _ fd peer => some (.accept fd peer)
  | .request i fresh => (net.nodes i).bind fun n =>
    match n.link with
    | .served fd => n.request.map fun r => .request fd r fresh
    | .backlog | .shut => none
  | .lose i => (net.nodes i).bind fun n =>
    match n.link with
    | .served fd => some (.disconnect fd)
    | .backlog | .shut => none
  | .datagram d stale message => some (.datagram d stale message)

def Enabled (rt : RealText) (e : NetworkEvent) : Prop :=
  match e with
  | .launch i _ => net.nodes i = none
  | .node i e => ∃ n ∈ net.nodes i, n.Ready rt e
  | .accept i fd peer =>
    (∃ n ∈ net.nodes i, n.link = .backlog) ∧ Event.Enabled net.server (.accept fd peer)
  | .request _ _ | .lose _ | .datagram _ _ _ => ∃ s ∈ net.serverEvent e, s.Enabled net.server

instance (rt : RealText) : DecidablePred (net.Enabled rt)
  | .launch i _ => decidable_of_iff ((net.nodes i).isNone = true) Option.isNone_iff_eq_none
  | .node i e => inferInstanceAs (Decidable (∃ n ∈ net.nodes i, n.Ready rt e))
  | .accept i fd peer => inferInstanceAs (Decidable
      ((∃ n ∈ net.nodes i, n.link = .backlog) ∧ Event.Enabled net.server (.accept fd peer)))
  | .request i fresh => inferInstanceAs (Decidable
      (∃ s ∈ net.serverEvent (.request i fresh), s.Enabled net.server))
  | .lose i => inferInstanceAs (Decidable (∃ s ∈ net.serverEvent (.lose i), s.Enabled net.server))
  | .datagram d stale message => inferInstanceAs (Decidable
      (∃ s ∈ net.serverEvent (.datagram d stale message), s.Enabled net.server))

def step (rt : RealText) (e : NetworkEvent) : Option Network :=
  match e with
  | .launch i id => do
    let p ← Process.launch id
    some (net.set i (.start p))
  | .node i e => do
    let n ← net.nodes i
    let n ← n.step rt e
    some (net.set i n)
  | .accept i fd peer => do
    let n ← net.nodes i
    (net.set i { n with link := .served fd }).serve (.accept fd peer)
  | .request i _ => do
    let n ← net.nodes i
    let r ← n.request
    let s ← net.serverEvent e
    (net.set i (n.received r)).serve s
  | .lose _ | .datagram _ _ _ => do
    let s ← net.serverEvent e
    net.serve s

end Network

def networkSystem (rt : RealText) (udpFd tcpListenFd : Fd) : System Network NetworkEvent where
  start := .start udpFd tcpListenFd
  enabled net e := net.Enabled rt e
  step net e := net.step rt e

abbrev NetworkHistory := List (Transition Network NetworkEvent)

instance (rt : RealText) (udpFd tcpListenFd : Fd) (net : Network) (e : NetworkEvent) :
    Decidable ((networkSystem rt udpFd tcpListenFd).enabled net e) :=
  inferInstanceAs (Decidable (net.Enabled rt e))

/-! ## The server's console

`exit` writes the notices to the connections and closes every socket, the listening one
included. The subscribers go on without the server.
-/

/-- The connection behind a step of the server that has left these descriptors open. -/
def Node.part (n : Node) (openFds : List Fd) : Node :=
  { n with link := match n.link with
      | .served fd => if fd ∈ openFds then .served fd else .shut
      -- Nobody is left to accept it.
      | .backlog | .shut => .shut }

/-- The server reads a line on its console. -/
def Network.console (net : Network) (line : Bytes) : Option Network := do
  let (after, leave) ← handleServerCommand line net.server
  let net := net.broadcast after
  some (if leave then { net with nodes := fun i => (net.nodes i).map fun n => n.part after.openFds }
    else net)

end PubSub
