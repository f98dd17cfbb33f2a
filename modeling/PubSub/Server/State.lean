import PubSub.Common.Protocol
import PubSub.General.Heap
import Std.Data.TreeMap.Lemmas

/-!
# The server's data

Follows `server.h`. `std::map` is a tree map ordered like `std::less`, a pointer
is an address of a heap, and what the process does to its surroundings (sends,
closes, console output) is recorded in the order in which it happens.
-/
namespace PubSub

open General Std

abbrev Fd := Nat
abbrev ClientPtr := Nat
abbrev MessagePtr := Nat

def stdinFileno : Fd := 0

/-- `stored_message_t`; `len` and `buff` are set together, once, and never change. -/
structure StoredMessage where
  c : Int
  len : Int
  buff : Bytes
  sized : len = (buff.length : Int)
  deriving DecidableEq

structure TcpClient where
  fd : Fd
  id : Bytes
  connected : Bool
  topics : TreeMap Bytes Bool
  lostMessages : List MessagePtr

structure ServerState where
  clients : TreeMap Bytes ClientPtr
  subscriptions : TreeMap Bytes (List ClientPtr)
  clientAddresses : TreeMap Fd SockAddr

def pollIn : BitVec 16 := 1
def pollErr : BitVec 16 := 8
def pollHup : BitVec 16 := 16

structure PollFd where
  fd : Fd
  events : BitVec 16
  revents : BitVec 16
  deriving DecidableEq, Repr

/-- What the process does to its surroundings. -/
inductive Effect where
  /-- `send_all` of the length and of the body, for the client with this id. -/
  | deliver (id : Bytes) (fd : Fd) (len : Int) (buff : Bytes)
  | sendNotice (fd : Fd) (record : Bytes)
  | close (fd : Fd)
  | print (text : Bytes)
  deriving DecidableEq

/-- The server process: its variables, its heap and the descriptors it has open. -/
structure World where
  state : ServerState
  pollSet : List PollFd
  clientHeap : Heap TcpClient
  messageHeap : Heap StoredMessage
  openFds : List Fd
  output : List Effect

/-! ## Datagrams -/

/-- A datagram as `recvfrom` returns it; longer ones arrive truncated to the buffer. -/
structure Datagram where
  sender : SockAddr
  payload : Bytes
  fits : payload.length ≤ 2 * messagesSize - 1

/-- `message->buff`: sender address, sender port, payload. -/
def Datagram.body (d : Datagram) : Bytes :=
  d.sender.addr.bytes ++ d.sender.port.bytes ++ d.payload

@[simp] theorem Datagram.body_length (d : Datagram) : d.body.length = 6 + d.payload.length := by
  simp [body, InAddr.bytes, NetPort.bytes]; omega

/-- The message `process_udp_message` builds, not yet referenced. -/
def Datagram.message (d : Datagram) : StoredMessage where
  c := 0
  len := 4 + 2 + d.payload.length
  buff := d.body
  sized := by simp

/-- The bytes of a message on the wire: its length, then that many bytes of its body. -/
def wire (len : Int) (buff : Bytes) : Bytes := int32Bytes len ++ buff.take len.toNat

def StoredMessage.addRef (m : StoredMessage) : StoredMessage := { m with c := m.c + 1 }

def StoredMessage.dropRef (m : StoredMessage) : StoredMessage := { m with c := m.c - 1 }

/-! ## Elementary updates -/

namespace World

def emit (w : World) (e : Effect) : World := { w with output := w.output ++ [e] }

def setClient (w : World) (p : ClientPtr) (c : TcpClient) : World :=
  { w with clientHeap := w.clientHeap.set p c }

def setMessage (w : World) (p : MessagePtr) (m : StoredMessage) : World :=
  { w with messageHeap := w.messageHeap.set p m }

def setState (w : World) (s : ServerState) : World := { w with state := s }

/-- `close(fd)` -/
def closeFd (w : World) (fd : Fd) : World :=
  { w.emit (.close fd) with openFds := w.openFds.filter (· ≠ fd) }

/-- The three lines that give up a connection: `close(fd)`,
`client_addresses.erase(fd)` and `poll_fds.erase(begin + index)`. -/
def dropConnection (w : World) (fd : Fd) (index : Nat) : World :=
  let w := w.closeFd fd
  { w with
    state := { w.state with clientAddresses := w.state.clientAddresses.erase fd }
    pollSet := w.pollSet.eraseIdx index }

/-- The vector `state.subscriptions[p]`, empty where the key is absent. -/
def subscribers (w : World) (pattern : Bytes) : List ClientPtr :=
  w.state.subscriptions.getD pattern []

/-- The queue behind a client pointer. -/
def queue (w : World) (p : ClientPtr) : List MessagePtr :=
  match w.clientHeap.read p with
  | some c => c.lostMessages
  | none => []

/-- The pointers in `state.clients`, in the map's order. -/
def clientPtrs (w : World) : List ClientPtr := w.state.clients.toList.map (·.2)

/-! ## What each update leaves alone -/

section

variable (w : World) (e : Effect) (p : Nat) (c : TcpClient) (m : StoredMessage) (s : ServerState)
  (fd : Fd) (index : Nat)

@[simp] theorem emit_state : (w.emit e).state = w.state := rfl
@[simp] theorem emit_pollSet : (w.emit e).pollSet = w.pollSet := rfl
@[simp] theorem emit_clientHeap : (w.emit e).clientHeap = w.clientHeap := rfl
@[simp] theorem emit_messageHeap : (w.emit e).messageHeap = w.messageHeap := rfl
@[simp] theorem emit_openFds : (w.emit e).openFds = w.openFds := rfl
@[simp] theorem emit_output : (w.emit e).output = w.output ++ [e] := rfl

@[simp] theorem setClient_state : (w.setClient p c).state = w.state := rfl
@[simp] theorem setClient_pollSet : (w.setClient p c).pollSet = w.pollSet := rfl
@[simp] theorem setClient_clientHeap : (w.setClient p c).clientHeap = w.clientHeap.set p c := rfl
@[simp] theorem setClient_messageHeap : (w.setClient p c).messageHeap = w.messageHeap := rfl
@[simp] theorem setClient_openFds : (w.setClient p c).openFds = w.openFds := rfl
@[simp] theorem setClient_output : (w.setClient p c).output = w.output := rfl

@[simp] theorem setMessage_state : (w.setMessage p m).state = w.state := rfl
@[simp] theorem setMessage_pollSet : (w.setMessage p m).pollSet = w.pollSet := rfl
@[simp] theorem setMessage_clientHeap : (w.setMessage p m).clientHeap = w.clientHeap := rfl
@[simp] theorem setMessage_messageHeap :
    (w.setMessage p m).messageHeap = w.messageHeap.set p m := rfl
@[simp] theorem setMessage_openFds : (w.setMessage p m).openFds = w.openFds := rfl
@[simp] theorem setMessage_output : (w.setMessage p m).output = w.output := rfl

@[simp] theorem setState_state : (w.setState s).state = s := rfl
@[simp] theorem setState_pollSet : (w.setState s).pollSet = w.pollSet := rfl
@[simp] theorem setState_clientHeap : (w.setState s).clientHeap = w.clientHeap := rfl
@[simp] theorem setState_messageHeap : (w.setState s).messageHeap = w.messageHeap := rfl
@[simp] theorem setState_openFds : (w.setState s).openFds = w.openFds := rfl
@[simp] theorem setState_output : (w.setState s).output = w.output := rfl

@[simp] theorem dropConnection_clients :
    (w.dropConnection fd index).state.clients = w.state.clients := rfl
@[simp] theorem dropConnection_subscriptions :
    (w.dropConnection fd index).state.subscriptions = w.state.subscriptions := rfl
@[simp] theorem dropConnection_clientAddresses :
    (w.dropConnection fd index).state.clientAddresses = w.state.clientAddresses.erase fd := rfl
@[simp] theorem dropConnection_pollSet :
    (w.dropConnection fd index).pollSet = w.pollSet.eraseIdx index := rfl
@[simp] theorem dropConnection_clientHeap :
    (w.dropConnection fd index).clientHeap = w.clientHeap := rfl
@[simp] theorem dropConnection_messageHeap :
    (w.dropConnection fd index).messageHeap = w.messageHeap := rfl
@[simp] theorem dropConnection_openFds :
    (w.dropConnection fd index).openFds = w.openFds.filter (· ≠ fd) := rfl
@[simp] theorem dropConnection_output :
    (w.dropConnection fd index).output = w.output ++ [.close fd] := rfl

end

end World

end PubSub
