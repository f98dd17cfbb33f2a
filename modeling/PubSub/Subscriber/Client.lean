import PubSub.Common.Console
import PubSub.Common.Transfer

/-!
# The subscriber

Follows `subscriber.cpp`: the decoder of server messages and the user's commands.
-/
namespace PubSub

open General

/-! ## Messages from the server -/

/-- Where the subscriber's main loop stands. `stopped` is `running == false`;
`aborted` is an uncaught exception; `waiting` is a call blocked in `recv`. -/
inductive Status where
  | running
  | stopped
  | aborted
  | waiting
  deriving DecidableEq, Repr

structure Subscriber where
  sock : Incoming
  /-- The strings passed to `parse_input` so far, oldest first. -/
  parsed : List Bytes
  status : Status

/-- A subscriber that has just connected. -/
def Subscriber.start (sock : Incoming) : Subscriber := ⟨sock, [], .running⟩

inductive RecvString where
  | text (result : Bytes) (rest : Incoming)
  | lengthError
  | blocked (rest : Incoming)

/-- `recv_string`. A negative length becomes a huge `size_t`, which the
constructor of `std::string` rejects with `std::length_error`. -/
def recvString (sock : Incoming) (len : Int) : RecvString :=
  if len < 0 then .lengthError
  else match recvAll len.toNat sock with
    | .filled bytes rest => .text bytes rest
    -- The caller cannot tell this empty string from that of length 0.
    | .ended rest => .text [] rest
    | .blocked rest => .blocked rest

def Subscriber.parse (rt : RealText) (c : Subscriber) (data : Bytes) : Subscriber :=
  { c with
    parsed := c.parsed ++ [data]
    status := if (parseInput rt data).isSome then c.status else .aborted }

/-- The control branch of `handle_server_message`. -/
def handleControlMessage (rt : RealText) (c : Subscriber) : Subscriber :=
  match recvAll sizeofTcpRequest c.sock with
  | .ended rest => { c with sock := rest, status := .stopped }
  | .blocked rest => { c with sock := rest, status := .waiting }
  | .filled controlMsg rest =>
    if leValue ((controlMsg.drop offsetMessage).take 4) = systemShutdown then
      { c with sock := rest, status := .stopped }
    else { c with sock := rest }.parse rt controlMsg

/-- The length-prefixed branch of `handle_server_message`. -/
def handleDataMessage (rt : RealText) (c : Subscriber) : Subscriber :=
  match recvAll 4 c.sock with
  | .ended rest => { c with sock := rest, status := .stopped }
  | .blocked rest => { c with sock := rest, status := .waiting }
  | .filled msgLen rest =>
    match recvString rest (toInt32 (leValue msgLen)) with
    | .lengthError => { c with sock := rest, status := .aborted }
    | .blocked rest => { c with sock := rest, status := .waiting }
    | .text data rest =>
      if data = [] then { c with sock := rest, status := .stopped }
      else { c with sock := rest }.parse rt data

/-- `handle_server_message`. The peek fills as many of the four bytes of the zeroed
`msg_len` as have arrived. -/
def handleServerMessage (rt : RealText) (c : Subscriber) : Subscriber :=
  match c.sock.peek 4 with
  | .eof => { c with status := .stopped }
  | .blocked => { c with status := .waiting }
  | .data bytes rest =>
    if toInt32 (leValue bytes) = sizeofTcpRequest then
      handleControlMessage rt { c with sock := rest }
    else handleDataMessage rt { c with sock := rest }

/-- One round of the subscriber's loop, as far as server messages go. -/
def Subscriber.round (rt : RealText) (c : Subscriber) : Subscriber :=
  if c.status = .running then handleServerMessage rt c else c

def Subscriber.rounds (rt : RealText) : Nat → Subscriber → Subscriber
  | 0, c => c
  | n + 1, c => rounds rt n (c.round rt)

/-- The loop run to its end: a round that goes on consumes at least one byte. -/
def Subscriber.drain (rt : RealText) (c : Subscriber) : Subscriber :=
  c.rounds rt (c.sock.pending.length + 1)

/-! ## Commands of the user -/

/-- `strcpy` to a place inside a record; none writes behind the record's end. -/
def strcpy (memory : Bytes) (offset : Nat) (text : Bytes) : Option Bytes :=
  if offset + text.length + 1 ≤ memory.length then some (store memory offset (text ++ [0]))
  else none

def emptyRequest : Bytes := List.replicate sizeofTcpRequest 0

/-- What a user command did: the packets sent, the text printed and whether the
client leaves its loop. -/
structure CommandResult where
  sent : List Bytes
  printed : Bytes
  leave : Bool
  deriving DecidableEq

/-- `send_connect_message` -/
def sendConnectMessage (id : Bytes) : Option Bytes := do
  let packet ← strcpy emptyRequest offsetId id
  let packet := store packet offsetType (leBytes 4 Command.message.word)
  some (store packet offsetMessage (leBytes 4 systemConnect))

/-- `process_user_command` -/
def processUserCommand (cmd : Bytes) (argv : List Bytes) (id : Bytes) : Option CommandResult :=
  if cmd = ascii "exit" then
    if argv.length ≠ 1 then some ⟨[], [], false⟩
    else do
      let req ← strcpy emptyRequest offsetId id
      let req := store req offsetType (leBytes 4 Command.exit.word)
      some ⟨[req], [], true⟩
  else if cmd = ascii "subscribe" then
    if argv.length < 2 then some ⟨[], [], false⟩
    else do
      let req ← strcpy emptyRequest offsetId id
      let req := store req offsetType (leBytes 4 Command.subscribe.word)
      -- The topic is copied after the type has been set, whatever its length.
      let req ← strcpy req offsetTopic (argv.getD 1 [])
      let sf : Int := if argv.length ≥ 3 then atoi (argv.getD 2 []) else 0
      -- The `int` of `atoi` becomes a `bool`: one byte, 0 or 1.
      let req := store req offsetSf [if sf ≠ 0 then 1 else 0]
      some ⟨[req], ascii "Subscribed to topic" ++ argv.getD 1 [] ++ ascii "\n", false⟩
  else if cmd = ascii "unsubscribe" then
    if argv.length ≠ 2 then some ⟨[], [], false⟩
    else do
      let req ← strcpy emptyRequest offsetId id
      let req := store req offsetType (leBytes 4 Command.unsubscribe.word)
      let req ← strcpy req offsetTopic (argv.getD 1 [])
      some ⟨[req], ascii "Unsubscribed from topic" ++ argv.getD 1 [] ++ ascii "\n", false⟩
  else some ⟨[], [], false⟩

/-- `handle_user_input` on a line that `fgets` has read. -/
def handleUserInput (line : Bytes) (id : Bytes) : Option CommandResult :=
  match stringToArgv line with
  | [] => some ⟨[], [], false⟩
  | cmd :: args => processUserCommand cmd (cmd :: args) id

end PubSub
