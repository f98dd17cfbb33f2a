import PubSub.Properties.Delivery
import PubSub.Properties.Requests
import PubSub.Properties.Subtrees

/-!
# Datagrams that are shorter than their topic field

`process_udp_message` copies 50 bytes out of its receive buffer, whatever the length of
the datagram. Behind a short payload without a NUL the topic goes on with the bytes the
buffer held before, and these decide who gets the message.
-/
namespace PubSub.Properties

open General Std

/-! ## The topic -/

/-- The field is full, or its topic is terminated within the datagram. -/
def TopicEnds (d : Datagram) : Prop := 50 ≤ d.payload.length ∨ 0 ∈ d.payload

/-- The bytes received, cut at the first NUL, at 50 bytes or at the end of the datagram. -/
def TopicReceived (d : Datagram) : Prop := ∀ stale, currentTopic stale d.payload = topicOf d

private theorem field_at (stale : Nat → UInt8) (payload : Bytes) (i : Nat) (inside : i < 50) :
    ((List.range 50).map (buffAfter stale payload) ++ [0])[i]? = some (payload.getD i (stale i)) := by
  rw [List.getElem?_append_left (by simpa using inside), List.getElem?_map,
    List.getElem?_range inside]
  rfl

/-- A topic that ends within the datagram is read from the datagram alone. -/
theorem topicReceived_of_ends (d : Datagram) (ends : TopicEnds d) : TopicReceived d := by
  intro stale
  by_cases full : 50 ≤ d.payload.length
  · exact currentTopic_full stale d full
  · have terminated : 0 ∈ d.payload := ends.resolve_left full
    obtain ⟨text, rest, shape, clean⟩ := List.eq_append_cons_of_mem terminated
    have plain : ∀ byte ∈ text, byte ≠ 0 := fun byte member zero => clean (zero ▸ member)
    have size : text.length < d.payload.length := by simp [shape]
    have topic : topicOf d = text := by
      rw [topicOf, List.take_of_length_le (by omega), shape]
      exact cString_append_nul text rest plain
    rw [topic, currentTopic]
    -- The NUL of the payload stands in front of everything the buffer held before.
    apply cString_eq _ _ plain
    · intro i here
      rw [field_at stale _ i (by omega), shape, List.getD_eq_getElem?_getD,
        List.getElem?_append_left here, List.getElem?_eq_getElem here]
      rfl
    · rw [field_at stale _ _ (by omega), shape, List.getD_eq_getElem?_getD,
        List.getElem?_append_right (Nat.le_refl _), Nat.sub_self]
      rfl

/-- Old contents of the buffer that have these bytes behind the payload. -/
def leftover (payload more : Bytes) (i : Nat) : UInt8 := more.getD (i - payload.length) 0

/-- A payload that does not end its topic is read on into the old contents. -/
theorem currentTopic_leftover (payload more : Bytes) (fits : (payload ++ more).length ≤ 50)
    (plain : ∀ byte ∈ payload ++ more, byte ≠ 0) :
    currentTopic (leftover payload more) payload = payload ++ more := by
  have read : ∀ i < 50, ((List.range 50).map (buffAfter (leftover payload more) payload) ++ [0])[i]? =
      some ((payload ++ more).getD i 0) := by
    intro i inside
    rw [field_at _ _ i inside, leftover]
    by_cases front : i < payload.length
    · simp [List.getElem?_append_left front, List.getElem?_eq_getElem front]
    · simp [List.getElem?_append_right (Nat.le_of_not_lt front),
        List.getElem?_eq_none (Nat.le_of_not_lt front)]
  apply cString_eq _ _ plain
  · intro i here
    rw [read i (by omega), List.getD_eq_getElem?_getD, List.getElem?_eq_getElem here]
    rfl
  · by_cases filled : (payload ++ more).length = 50
    · rw [filled, List.getElem?_append_right (by simp)]
      simp
    · rw [read _ (by omega), List.getD_eq_getElem?_getD, List.getElem?_eq_none (Nat.le_refl _)]
      rfl

/-! ## A pattern that tells a topic from its continuation -/

/-- One more byte lengthens the last level. -/
theorem splitOn_concat (text : Bytes) (byte : UInt8) (plain : byte ≠ slash) :
    ∃ front last, text.splitOn slash = front ++ [last] ∧
      (text ++ [byte]).splitOn slash = front ++ [last ++ [byte]] := by
  induction text with
  | nil => exact ⟨[], [], rfl, by simp [List.splitOn_cons_eq_if_modifyHead, plain]⟩
  | cons head text ih =>
    obtain ⟨front, last, before, behind⟩ := ih
    rw [List.cons_append, List.splitOn_cons_eq_if_modifyHead, List.splitOn_cons_eq_if_modifyHead,
      before, behind]
    by_cases cut : (head == slash) = true
    · exact ⟨[] :: front, last, by simp [cut], by simp [cut]⟩
    · -- The byte in front belongs to the first level, which may also be the last.
      cases front with
      | nil => exact ⟨[], head :: last, by simp [cut], by simp [cut]⟩
      | cons level front => exact ⟨(head :: level) :: front, last, by simp [cut], by simp [cut]⟩

/-- A topic matches itself, levels spelled like wildcards included. -/
theorem topicMatchesPattern_self (topic : Bytes) : topicMatchesPattern topic topic = some true := by
  apply topicMatchesPattern_ends
  have ends : Ends (splitParts topic ++ []) (splitParts topic ++ [])
      ⟨(splitParts topic).length, (splitParts topic).length, 0, 0, false⟩ true :=
    .accept (by simp) (by simp)
  simpa using ends_front (splitParts topic) [] [] true ends

/-- It does not match the pattern in which its last level is one letter longer. -/
theorem topicMatchesPattern_longer (topic : Bytes) :
    topicMatchesPattern topic (topic ++ ascii "x") = some false := by
  obtain ⟨front, last, before, behind⟩ := splitOn_concat topic 120 (by decide)
  apply topicMatchesPattern_ends
  rw [splitParts_eq, splitParts_eq, before, show ascii "x" = [120] from rfl, behind]
  apply ends_front
  apply Ends.return
  have topicHere : (front ++ [last])[front.length]? = some last := by simp
  have patternHere : (front ++ [last ++ [120]])[front.length]? = some (last ++ [120]) := by simp
  have other : ¬ (last ++ [120] = plusLevel ∨ last ++ [120] = last) := by
    rintro (plus | equal)
    · have letter := congrArg List.getLast? plus
      simp [plusLevel] at letter
    · simpa using congrArg List.length equal
  have literal : last ++ [120] ≠ starLevel := by
    intro star
    have letter := congrArg List.getLast? star
    simp [starLevel] at letter
  simp only [Cursor.iterate]
  rw [if_pos (by simp), if_pos (by simp), topicHere, patternHere]
  dsimp only
  rw [if_neg other, if_neg literal]
  rfl

/-! ## A client that listens to one pattern -/

/-- The record that subscribes a client to a topic. -/
def subscribeRecord (id topic : Bytes) (short : id.length ≤ 10) (inside : topic.length ≤ 55) :
    TcpRequest :=
  ⟨written id topic Command.subscribe.word, written_length id topic _ short inside⟩

theorem subscribeRecord_reads (id topic : Bytes) (short : id.length ≤ 10) (fits : topic.length ≤ 50)
    (plainId : ∀ byte ∈ id, byte ≠ 0) (plainTopic : ∀ byte ∈ topic, byte ≠ 0) :
    (subscribeRecord id topic short (by omega)).clientId = id ∧
      (subscribeRecord id topic short (by omega)).topic = topic ∧
      (subscribeRecord id topic short (by omega)).type = .subscribe := by
  have carries : Carries (subscribeRecord id topic short (by omega)) id topic Command.subscribe.word :=
    ⟨fun _ _ => rfl, rfl⟩
  refine ⟨clientId_of_carries carries short (by omega) plainId, ?_, ?_⟩
  · rw [topic_of_carries carries short (by omega) plainTopic, List.take_of_length_le fits]
  · rw [type_of_carries carries short (by omega) (by decide), if_pos (by omega)]
    rfl

/-- A connected client is subscribed to this pattern, and nobody to any other. -/
structure Listening (w : World) (p : ClientPtr) (pattern : Bytes) : Prop where
  known : ∃ c, w.clientHeap.read p = some c ∧ c.connected = true ∧ c.topics.contains pattern = true
  subscribed : p ∈ w.subscribers pattern
  only : ∀ q other, q ∈ w.subscribers other → other = pattern

theorem connect_registers {w : World} {fd : Fd} {r : TcpRequest} {index : Nat} {fresh : ClientPtr}
    (type : r.type = .message) (absent : w.state.clients[r.clientId]? = none) :
    handleClientRequest fd r index fresh w = some (registered w r.clientId fd fresh) := by
  simp only [handleClientRequest, type, handleConnect]
  rw [absent]
  rfl

theorem subscribe_joins {w : World} {fd : Fd} {r : TcpRequest} {index : Nat} {fresh : ClientPtr}
    {p : ClientPtr} {c : TcpClient} (type : r.type = .subscribe) (record : w.Record r.clientId p c)
    (new : w.subscribers r.topic = []) :
    handleClientRequest fd r index fresh w =
      some (tablesWith w (w.state.subscriptions.insert r.topic [p]) p
        { c with topics := c.topics.insert r.topic r.sf }) := by
  simp only [handleClientRequest, type, handleSubscribe]
  rw [record.entry]
  simp only [record.cell, Option.bind_eq_bind, Option.bind_some, new, List.not_mem_nil, if_false,
    List.nil_append]
  rfl

/-- The first subscription there is. -/
theorem listening_joined {w : World} {p : ClientPtr} {c : TcpClient} {topic pattern : Bytes}
    {flag : Bool} (same : topic = pattern) (nobody : w.state.subscriptions = ∅)
    (connected : c.connected = true) :
    Listening (tablesWith w (w.state.subscriptions.insert topic [p]) p
      { c with topics := c.topics.insert topic flag }) p pattern := by
  subst same
  refine ⟨⟨_, Heap.read_set_self _ _ _, connected, by simp⟩, ?_, ?_⟩
  · simp [World.subscribers, tablesWith]
  · intro q other member
    have vector : q ∈ if other = topic then [p] else w.subscribers other := by
      rw [← oneVector_insert w topic [p] other]
      exact member
    split at vector
    next same => exact same
    · simp [World.subscribers, nobody] at vector

private theorem request_run {udpFd tcpListenFd : Fd} {past : History} {w w' : World} {fd : Fd}
    {r : TcpRequest} {fresh : ClientPtr} (run : (serverSystem udpFd tcpListenFd).Run past w)
    (polled : fd ∈ w.connections) (unused : w.clientHeap.read fresh = none)
    (handled : handleClientRequest fd r (w.indexOf fd) fresh w = some w') :
    (serverSystem udpFd tcpListenFd).Run (past ++ [⟨w, .request fd r fresh, w'⟩]) w' :=
  .next run ⟨polled, unused⟩ handled

/-- Three events lead to a server with one client, which listens to the given pattern. -/
theorem exists_listening (udpFd tcpListenFd : Fd) (pattern : Bytes) (fits : pattern.length ≤ 50)
    (plain : ∀ byte ∈ pattern, byte ≠ 0) :
    ∃ past w p, (serverSystem udpFd tcpListenFd).Run past w ∧ Listening w p pattern ∧
      w.messageHeap.read 0 = none := by
  -- A descriptor that is none of the three in use from the start.
  obtain ⟨fd, unused⟩ : ∃ fd, fd ∉ (World.start udpFd tcpListenFd).openFds := by
    have above : ∀ m n : Nat, m + n + 1 ≠ m ∧ m + n + 1 ≠ n := by omega
    refine ⟨udpFd + tcpListenFd + 1, ?_⟩
    simp [World.start, stdinFileno, above udpFd tcpListenFd]
  let connect := exampleRequest .message "A" "" 0
  let subscribe := subscribeRecord (ascii "A") pattern (by decide) (by omega)
  let w₁ := handleNewConnection fd default (.start udpFd tcpListenFd)
  let w₂ := registered w₁ connect.clientId fd 0
  obtain ⟨name, topic, type⟩ := subscribeRecord_reads (ascii "A") pattern (by decide) fits (by decide) plain
  have polled : fd ∈ w₁.connections := by
    simp [World.connections, w₁, handleNewConnection, World.start]
  have kept : fd ∈ w₂.connections := by
    have same : w₂.pollSet = w₁.pollSet := announceClient_pollSet w₁ connect.clientId fd
    rwa [World.connections, same]
  have record : w₂.Record subscribe.clientId 0 ⟨fd, connect.clientId, true, ∅, []⟩ := by
    constructor
    · rw [name, show ascii "A" = connect.clientId by decide]
      simp [w₂]
    · rw [registered_read, if_pos rfl]
  have empty : w₂.state.subscriptions = ∅ := announceClient_subscriptions w₁ connect.clientId fd
  have new : w₂.subscribers subscribe.topic = [] := by
    rw [World.subscribers, empty]
    rfl
  have first : (serverSystem udpFd tcpListenFd).Run
      ([] ++ [⟨.start udpFd tcpListenFd, .accept fd default, w₁⟩]) w₁ := .next .start unused rfl
  have registers : handleClientRequest fd connect (w₁.indexOf fd) 0 w₁ = some w₂ :=
    connect_registers (by decide) (by simp [w₁, handleNewConnection, World.start])
  have unread : w₂.clientHeap.read 1 = none := by
    rw [registered_read, if_neg (by decide)]
    rfl
  have joins : handleClientRequest fd subscribe (w₂.indexOf fd) 1 w₂ = some _ :=
    subscribe_joins type record new
  have run := request_run (request_run first polled rfl registers) kept unread joins
  refine ⟨_, _, 0, run, listening_joined topic empty rfl, ?_⟩
  change w₂.messageHeap.read 0 = none
  rw [registered_messageHeap]
  rfl

/-! ## Routing -/

/-- What the other parties see of a datagram: what is sent, and what is queued. -/
def routing (stale : Nat → UInt8) (message : MessagePtr) (d : Datagram) (w : World) :
    Option (List Effect × (ClientPtr → List MessagePtr)) :=
  (processUdpMessage stale message d w).map fun w' => (w'.output, w'.queue)

/-- The datagram is routed alike whatever the buffer held before. -/
def RoutedAlike (d : Datagram) (w : World) : Prop :=
  ∀ message, w.messageHeap.read message = none → ∀ stale stale',
    routing stale message d w = routing stale' message d w

theorem routedAlike_of_ends (d : Datagram) (ends : TopicEnds d) (w : World) : RoutedAlike d w := by
  intro message unused stale stale'
  have received := topicReceived_of_ends d ends
  -- The old contents enter through the topic only.
  simp only [routing, processUdpMessage, received stale, received stale']

section

variable {w : World} {p : ClientPtr} {pattern : Bytes} (listening : Listening w p pattern)
  {d : Datagram} {message : MessagePtr} {topic : Bytes} {recipients stored : List ClientPtr} {w' : World}
include listening

theorem Listening.silent (routed : Routed w message d topic recipients stored w')
    (missed : topicMatchesPattern topic pattern = some false) : w'.output = w.output := by
  have nobody : recipients = [] := by
    rw [List.eq_nil_iff_forall_not_mem]
    intro q member
    obtain ⟨c, -, -, other, matched, subscribed, -⟩ := (routed.reached q).mp member
    rw [listening.only q other subscribed, missed] at matched
    cases matched
  rw [routed.output, nobody]
  simp

theorem Listening.told (routed : Routed w message d topic recipients stored w')
    (matched : topicMatchesPattern topic pattern = some true) : w'.output ≠ w.output := by
  obtain ⟨c, cell, connected, holds⟩ := listening.known
  have member : p ∈ recipients :=
    (routed.reached p).mpr ⟨c, cell, connected, pattern, matched, listening.subscribed, holds⟩
  have sent : sendTo w d.message p = some (.deliver c.id c.fd d.message.len d.message.buff) := by
    rw [sendTo, cell]
    rfl
  intro same
  rw [routed.output, List.append_right_eq_self] at same
  have effect := List.mem_filterMap.mpr ⟨p, member, sent⟩
  rw [same] at effect
  cases effect

end

/-- Where the topic does not end within the datagram, some reachable server routes it by
what the buffer held before. -/
theorem routed_by_leftover (udpFd tcpListenFd : Fd) (d : Datagram) (open_topic : ¬ TopicEnds d) :
    ∃ past w, (serverSystem udpFd tcpListenFd).Run past w ∧ ¬ RoutedAlike d w := by
  simp only [TopicEnds, not_or, Nat.not_le] at open_topic
  obtain ⟨short, unterminated⟩ := open_topic
  have plain : ∀ byte ∈ d.payload ++ ascii "x", byte ≠ 0 := by
    rw [List.forall_mem_append]
    exact ⟨fun byte member zero => unterminated (zero ▸ member), by decide⟩
  have fits : (d.payload ++ ascii "x").length ≤ 50 := by
    rw [List.length_append]
    exact short
  obtain ⟨past, w, p, run, listening, unused⟩ :=
    exists_listening udpFd tcpListenFd (d.payload ++ ascii "x") fits plain
  refine ⟨past, w, run, ?_⟩
  intro alike
  have healthy := healthy_of_run run
  have cut : currentTopic (leftover d.payload []) d.payload = d.payload := by
    have read := currentTopic_leftover d.payload [] (by rw [List.append_nil]; omega)
      (fun byte member => plain byte (List.mem_append_left _ (by simpa using member)))
    rwa [List.append_nil] at read
  have continued : currentTopic (leftover d.payload (ascii "x")) d.payload = d.payload ++ ascii "x" :=
    currentTopic_leftover d.payload (ascii "x") fits plain
  -- With a NUL behind the payload nobody is told, with an `x` the client is.
  obtain ⟨w₁, recipients₁, stored₁, done₁, routed₁⟩ :=
    processUdpMessage_total healthy (leftover d.payload []) 0 d unused
  obtain ⟨w₂, recipients₂, stored₂, done₂, routed₂⟩ :=
    processUdpMessage_total healthy (leftover d.payload (ascii "x")) 0 d unused
  rw [cut] at routed₁
  rw [continued] at routed₂
  have silent := listening.silent routed₁ (topicMatchesPattern_longer d.payload)
  have told := listening.told routed₂ (topicMatchesPattern_self _)
  have same := alike 0 unused (leftover d.payload []) (leftover d.payload (ascii "x"))
  simp only [routing, done₁, done₂, Option.map_some, Option.some.injEq, Prod.mk.injEq] at same
  exact told (same.1.symm.trans silent)

/-- Topic and routing depend on the datagram alone, in every state or in every reachable
one, exactly when the datagram ends its topic itself. -/
theorem routing_iff_topicEnds (udpFd tcpListenFd : Fd) (d : Datagram) :
    ((TopicReceived d ∧ ∀ w, RoutedAlike d w) ↔ TopicEnds d) ∧
      ((∀ past w, (serverSystem udpFd tcpListenFd).Run past w → RoutedAlike d w) ↔ TopicEnds d) := by
  have needed (alike : ∀ past w, (serverSystem udpFd tcpListenFd).Run past w → RoutedAlike d w) :
      TopicEnds d := by
    by_contra open_topic
    obtain ⟨past, w, run, unlike⟩ := routed_by_leftover udpFd tcpListenFd d open_topic
    exact unlike (alike past w run)
  constructor
  · constructor
    · rintro ⟨-, alike⟩
      exact needed fun _ w _ => alike w
    · intro ends
      exact ⟨topicReceived_of_ends d ends, routedAlike_of_ends d ends⟩
  · exact ⟨needed, fun ends _ w _ => routedAlike_of_ends d ends w⟩

/-- Two bytes without a NUL. -/
def shortTopic : Datagram := ⟨default, ascii "ab", by decide⟩

theorem shortTopic_leaks :
    ¬ ∀ past w, (serverSystem 3 4).Run past w → RoutedAlike shortTopic w := by
  intro alike
  obtain ⟨past, w, run, unlike⟩ := routed_by_leftover 3 4 shortTopic (by unfold TopicEnds; decide)
  exact unlike (alike past w run)

end PubSub.Properties
