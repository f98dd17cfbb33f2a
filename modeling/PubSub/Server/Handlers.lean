import PubSub.Server.Matching
import PubSub.Server.State
import PubSub.Common.Parse

/-!
# The event handlers

Follows the handlers of `server.cpp`. None is undefined behaviour: following a
dangling pointer. Addresses returned by `new` and descriptors returned by
`accept` are arguments, since the process does not choose them.
-/
namespace PubSub

open General Std

/-! ## New connections -/

/-- `handle_new_connection`, for the descriptor and address `accept` returned. -/
def handleNewConnection (tcpCliFd : Fd) (tcpCliAddr : SockAddr) (w : World) : World :=
  { w with
    openFds := tcpCliFd :: w.openFds
    state := { w.state with
      clientAddresses := w.state.clientAddresses.insert tcpCliFd tcpCliAddr }
    pollSet := w.pollSet ++ [⟨tcpCliFd, pollIn, 0⟩] }

/-! ## Datagrams -/

/-- The local array `buff` after `recvfrom`: the payload over whatever it held before. -/
def buffAfter (stale : Nat → UInt8) (payload : Bytes) (i : Nat) : UInt8 :=
  payload.getD i (stale i)

/-- `memcpy(topic_str, buff, 50); topic_str[50] = '\0'; current_topic = topic_str;` -/
def currentTopic (stale : Nat → UInt8) (payload : Bytes) : Bytes :=
  cString ((List.range 50).map (buffAfter stale payload) ++ [0])

/-- State of the fan-out loops: the world and the set `message_recipients`. -/
abbrev FanOut := World × List ClientPtr

/-- Body of the loop over the subscribers of a matching pattern. -/
def fanOutClient (message : MessagePtr) (pattern : Bytes) (acc : FanOut) (client : ClientPtr) :
    Option FanOut := do
  let (w, recipients) := acc
  let c ← w.clientHeap.read client
  if !c.topics.contains pattern then some acc
  else if c.connected then
    -- Another of its patterns has matched before.
    if client ∈ recipients then some acc
    else do
      let m ← w.messageHeap.read message
      some (w.emit (.deliver c.id c.fd m.len m.buff), client :: recipients)
  else if c.topics.getD pattern false then
    if message ∈ c.lostMessages then some acc
    else do
      let m ← w.messageHeap.read message
      let w := w.setMessage message m.addRef
      some (w.setClient client { c with lostMessages := c.lostMessages ++ [message] }, recipients)
  else some acc

/-- Body of the loop over `state.subscriptions`. -/
def fanOutPattern (message : MessagePtr) (topic : Bytes) (acc : FanOut)
    (entry : Bytes × List ClientPtr) : Option FanOut := do
  if ← topicMatchesPattern topic entry.1 then
    entry.2.foldlM (fanOutClient message entry.1) acc
  else some acc

/-- `process_udp_message`; `new stored_message_t` returned the address `message`. -/
def processUdpMessage (stale : Nat → UInt8) (message : MessagePtr) (d : Datagram) (w : World) :
    Option World := do
  let w := { w with messageHeap := w.messageHeap.alloc message d.message }
  let topic := currentTopic stale d.payload
  let (w, _) ← w.state.subscriptions.toList.foldlM (fanOutPattern message topic) (w, [])
  -- A message that no queue has taken up is deleted again.
  let m ← w.messageHeap.read message
  if m.c = 0 then some { w with messageHeap := w.messageHeap.free message } else some w

/-! ## Client requests -/

/-- `if (--msg->c == 0) delete msg;` -/
def releaseMessage (w : World) (msg : MessagePtr) : Option World := do
  let heap ← w.messageHeap.release StoredMessage.c StoredMessage.dropRef msg
  some { w with messageHeap := heap }

/-- Body of the loop that sends the stored messages on reconnect. -/
def flushMessage (id : Bytes) (fd : Fd) (w : World) (msg : MessagePtr) : Option World := do
  let m ← w.messageHeap.read msg
  releaseMessage (w.emit (.deliver id fd m.len m.buff)) msg

/-- `state.client_addresses[fd]`, which inserts a zero address where there is none. -/
def addressEntry (w : World) (fd : Fd) : World :=
  match w.state.clientAddresses[fd]? with
  | some _ => w
  | none => w.setState { w.state with
      clientAddresses := w.state.clientAddresses.insert fd default }

/-- Look the address up and print the line about a new client. -/
def announceClient (w : World) (clientId : Bytes) (fd : Fd) : World :=
  let peer := w.state.clientAddresses.getD fd default
  (addressEntry w fd).emit (.print (ascii "New client " ++ clientId ++ ascii " connected from " ++
    inetNtoa peer.addr ++ ascii ":" ++ decimal (ntohs peer.port) ++ ascii ".\n"))

/-- `case MESSAGE` of `handle_client_request`; `fresh` is what `new tcp_client_t` returns. -/
def handleConnect (fd : Fd) (clientId : Bytes) (index : Nat) (fresh : ClientPtr) (w : World) :
    Option World :=
  match w.state.clients[clientId]? with
  | some p => do
    let client ← w.clientHeap.read p
    if client.connected then
      let w := w.emit (.print (ascii "Client " ++ clientId ++ ascii " already connected.\n"))
      some (w.dropConnection fd index)
    else do
      let w := announceClient w clientId fd
      -- The client counts as connected while its messages are being sent.
      let w := w.setClient p { client with fd := fd, connected := true }
      let w ← client.lostMessages.foldlM (flushMessage clientId fd) w
      some (w.setClient p { client with fd := fd, connected := true, lostMessages := [] })
  | none =>
    let w := announceClient w clientId fd
    let client : TcpClient := ⟨fd, clientId, true, ∅, []⟩
    let w := { w with clientHeap := w.clientHeap.alloc fresh client }
    some (w.setState { w.state with clients := w.state.clients.insert clientId fresh })

/-- `case SUBSCRIBE` -/
def handleSubscribe (clientId topic : Bytes) (sf : Bool) (w : World) : Option World :=
  match w.state.clients[clientId]? with
  | some p => do
    let client ← w.clientHeap.read p
    let subs := w.subscribers topic
    -- `subscriptions[topic]` inserts the key only when the client is added to its vector.
    let w := if p ∈ subs then w else
      w.setState { w.state with subscriptions := w.state.subscriptions.insert topic (subs ++ [p]) }
    some (w.setClient p { client with topics := client.topics.insert topic sf })
  | none => some w

/-- `case UNSUBSCRIBE` -/
def handleUnsubscribe (clientId topic : Bytes) (w : World) : Option World :=
  match w.state.clients[clientId]? with
  | some p => do
    let client ← w.clientHeap.read p
    -- The key stays, with an empty vector if need be.
    let w := match w.state.subscriptions[topic]? with
      | some subs => w.setState { w.state with
          subscriptions := w.state.subscriptions.insert topic (subs.filter (· ≠ p)) }
      | none => w
    some (w.setClient p { client with topics := client.topics.erase topic })
  | none => some w

/-- `case EXIT` -/
def handleExit (fd : Fd) (clientId : Bytes) (index : Nat) (w : World) : Option World :=
  match w.state.clients[clientId]? with
  | some p => do
    let client ← w.clientHeap.read p
    let w := w.emit (.print (ascii "Client " ++ clientId ++ ascii " disconnected.\n"))
    let w := w.setClient p { client with connected := false }
    some (w.dropConnection fd index)
  | none => some (w.dropConnection fd index)

/-- `handle_client_request`: every branch finds its client by the id in the request. -/
def handleClientRequest (fd : Fd) (request : TcpRequest) (index : Nat) (fresh : ClientPtr)
    (w : World) : Option World :=
  match request.type with
  | .message => handleConnect fd request.clientId index fresh w
  | .subscribe => handleSubscribe request.clientId request.topic request.sf w
  | .unsubscribe => handleUnsubscribe request.clientId request.topic w
  | .exit => handleExit fd request.clientId index w
  | .other _ => some w

/-! ## Lost connections -/

/-- The search of `handle_client_disconnect`: the id of the first record with this
descriptor, connected or not; the empty string when there is none. -/
def findClientByFd (heap : Heap TcpClient) (fd : Fd) : List (Bytes × ClientPtr) → Option Bytes
  | [] => some []
  | (id, p) :: rest => do
    -- The flag `connected` is not looked at.
    let client ← heap.read p
    if client.fd = fd then some id else findClientByFd heap fd rest

/-- `handle_client_disconnect` -/
def handleClientDisconnect (fd : Fd) (index : Nat) (w : World) : Option World := do
  let clientIdToMark ← findClientByFd w.clientHeap fd w.state.clients.toList
  if clientIdToMark ≠ [] then
    match w.state.clients[clientIdToMark]? with
    | some p => do
      let client ← w.clientHeap.read p
      some ((w.setClient p { client with connected := false }).dropConnection fd index)
    -- The id has just been found in the map.
    | none => none
  else some (w.dropConnection fd index)

/-! ## The console -/

/-- The record `handle_server_command` sends to every connected client. -/
def shutdownNotice : Bytes :=
  let notice := store (List.replicate sizeofTcpRequest 0) offsetId (ascii "SERVER" ++ [0])
  let notice := store notice offsetType (leBytes 4 Command.message.word)
  store notice offsetMessage (leBytes 4 systemShutdown)

def notifyClient (w : World) (p : ClientPtr) : Option World := do
  let client ← w.clientHeap.read p
  if client.connected then some (w.emit (.sendNotice client.fd shutdownNotice)) else some w

/-- Release the queue of a client and delete its record. -/
def freeClient (w : World) (p : ClientPtr) : Option World := do
  let client ← w.clientHeap.read p
  let w ← client.lostMessages.foldlM releaseMessage w
  some { w with clientHeap := w.clientHeap.free p }

/-- The `exit` branch of `handle_server_command`. -/
def shutdown (w : World) : Option World := do
  let w ← w.clientPtrs.foldlM notifyClient w
  -- Clients, UDP and listening socket alike; only standard input stays open.
  let w := w.pollSet.foldl (fun w pfd => if pfd.fd ≠ stdinFileno then w.closeFd pfd.fd else w) w
  w.clientPtrs.foldlM freeClient w

/-- `handle_server_command` on the line `fgets` has read; true ends the server loop. -/
def handleServerCommand (line : Bytes) (w : World) : Option (World × Bool) :=
  if stringToArgv line = [ascii "exit"] then do
    let w ← shutdown w
    some (w, true)
  else some (w, false)

end PubSub
