import PubSub.General.Bytes

/-!
# Constants and records shared by server and subscriber

Follows `common.h`. A `tcp_request_t` is the record as it lies in memory and as
it goes over the wire: the id at offset 0, the union at 12 (topic at 12, store
and forward flag at 63, system message at 12), the type at 64, 68 bytes in all.
-/
namespace PubSub

open General

def messagesSize : Nat := 1500

/-- `command_t`; the record's type field is a 32-bit word that need not name a command. -/
inductive Command where
  | exit
  | subscribe
  | unsubscribe
  | message
  | other (word : Nat)
  deriving DecidableEq, Repr

def Command.ofWord : Nat → Command
  | 0 => .exit
  | 1 => .subscribe
  | 2 => .unsubscribe
  | 3 => .message
  | word => .other word

def Command.word : Command → Nat
  | .exit => 0
  | .subscribe => 1
  | .unsubscribe => 2
  | .message => 3
  | .other word => word

/-- `system_message_t` -/
def systemConnect : Nat := 0
def systemShutdown : Nat := 1

/-- `data_t` -/
def dataInt : UInt8 := 0
def dataShortReal : UInt8 := 1
def dataFloat : UInt8 := 2
def dataString : UInt8 := 3

/-! ## The layout of `tcp_request_t` -/

def sizeofTcpRequest : Nat := 68
def offsetId : Nat := 0
def offsetTopic : Nat := 12
def offsetMessage : Nat := 12
def offsetSf : Nat := 63
def offsetType : Nat := 64

/-- A complete record as received. -/
structure TcpRequest where
  bytes : Bytes
  size : bytes.length = sizeofTcpRequest
  deriving DecidableEq

namespace TcpRequest

/-- `request.id[10] = '\0'; std::string client_id(request.id);` -/
def clientId (r : TcpRequest) : Bytes := cString ((r.bytes.set (offsetId + 10) 0).drop offsetId)

def type (r : TcpRequest) : Command := .ofWord (leValue ((r.bytes.drop offsetType).take 4))

/-- `request.subscribe.topic[50] = '\0'; std::string topic(request.subscribe.topic);`
The other member of the union, `unsubscribe`, has its topic at the same place. -/
def topic (r : TcpRequest) : Bytes :=
  cString ((r.bytes.set (offsetTopic + 50) 0).drop offsetTopic)

/-- `request.subscribe.sf` -/
def sf (r : TcpRequest) : Bool := r.bytes.getD offsetSf 0 != 0

def message (r : TcpRequest) : Nat := leValue ((r.bytes.drop offsetMessage).take 4)

end TcpRequest

/-! ## Addresses -/

/-- `in_addr`: the four bytes in memory order. -/
structure InAddr where
  b0 : UInt8
  b1 : UInt8
  b2 : UInt8
  b3 : UInt8
  deriving DecidableEq, Repr, Inhabited

/-- A port in network byte order. -/
structure NetPort where
  hi : UInt8
  lo : UInt8
  deriving DecidableEq, Repr, Inhabited

/-- The address part of a `sockaddr_in`. -/
structure SockAddr where
  addr : InAddr
  port : NetPort
  deriving DecidableEq, Repr, Inhabited

def InAddr.bytes (a : InAddr) : Bytes := [a.b0, a.b1, a.b2, a.b3]

def NetPort.bytes (p : NetPort) : Bytes := [p.hi, p.lo]

def decimal (n : Nat) : Bytes := ascii (toString n)

/-- `inet_ntoa` -/
def inetNtoa (a : InAddr) : Bytes :=
  decimal a.b0.toNat ++ ascii "." ++ decimal a.b1.toNat ++ ascii "." ++
    decimal a.b2.toNat ++ ascii "." ++ decimal a.b3.toNat

def ntohs (p : NetPort) : Nat := 256 * p.hi.toNat + p.lo.toNat

end PubSub
