import PubSub.Server.Outcomes
import PubSub.Properties.Matching

/-!
# The fan-out of a datagram

`process_udp_message` walks over the subscribers of every matching pattern. What
it does to a client depends on the patterns it is visited for, not on their order.
-/
namespace PubSub.Properties

open General Std

/-- A client and the pattern in whose vector the loops meet it. -/
abbrev Visit := ClientPtr × Bytes

/-- The visits of the two loops, in their order. -/
def visits (topic : Bytes) (entries : List (Bytes × List ClientPtr)) : List Visit :=
  entries.flatMap fun entry =>
    if topicMatchesPattern topic entry.1 = some true then entry.2.map fun p => (p, entry.1) else []

theorem fanOut_visits (message : MessagePtr) (topic : Bytes) (entries : List (Bytes × List ClientPtr))
    (acc : FanOut) :
    entries.foldlM (fanOutPattern message topic) acc =
      (visits topic entries).foldlM (fun acc v => fanOutClient message v.2 acc v.1) acc := by
  induction entries generalizing acc with
  | nil => rfl
  | cons entry entries ih =>
    obtain ⟨verdict, found⟩ := topicMatchesPattern_returns topic entry.1
    have tail : (fun acc => entries.foldlM (fanOutPattern message topic) acc) =
        fun acc => (visits topic entries).foldlM (fun acc v => fanOutClient message v.2 acc v.1) acc :=
      funext ih
    rw [List.foldlM_cons, visits, List.flatMap_cons, List.foldlM_append, ← visits]
    simp only [tail, fanOutPattern, found]
    cases verdict with
    | true => simp [List.foldlM_map]
    | false => simp

theorem mem_visits (topic : Bytes) (table : TreeMap Bytes (List ClientPtr)) (p : ClientPtr)
    (pattern : Bytes) :
    (p, pattern) ∈ visits topic table.toList ↔
      topicMatchesPattern topic pattern = some true ∧ p ∈ table.getD pattern [] := by
  simp only [visits, List.mem_flatMap, Prod.exists, TreeMap.mem_toList_iff_getElem?_eq_some]
  constructor
  · rintro ⟨key, subs, vector, member⟩
    split at member
    next hit =>
      simp only [List.mem_map, Prod.mk.injEq] at member
      obtain ⟨q, inside, rfl, rfl⟩ := member
      refine ⟨hit, ?_⟩
      rw [TreeMap.getD_eq_getD_getElem?, vector]
      exact inside
    · cases member
  · rintro ⟨hit, member⟩
    rw [TreeMap.getD_eq_getD_getElem?] at member
    cases vector : table[pattern]? with
    | none => simp [vector] at member
    | some subs =>
      refine ⟨pattern, subs, vector, ?_⟩
      rw [vector] at member
      rw [if_pos hit]
      exact List.mem_map_of_mem (f := fun q => (q, pattern)) member

/-! ## One visit -/

section

variable (w : World) (message : MessagePtr) (m : StoredMessage)

/-- Sending the message to a client. -/
def sendTo (p : ClientPtr) : Option Effect :=
  (w.clientHeap.read p).map fun c => .deliver c.id c.fd m.len m.buff

/-- A connected client that has been visited for a pattern it is subscribed to. -/
def Reached (seen : List Visit) (p : ClientPtr) : Prop :=
  ∃ c, w.clientHeap.read p = some c ∧ c.connected = true ∧
    ∃ pattern, (p, pattern) ∈ seen ∧ c.topics.contains pattern = true

/-- A disconnected client that has been visited for a pattern with the flag set. -/
def Kept (seen : List Visit) (p : ClientPtr) : Prop :=
  ∃ c, w.clientHeap.read p = some c ∧ c.connected = false ∧
    ∃ pattern, (p, pattern) ∈ seen ∧ c.topics[pattern]? = some true

/-- The loops in the middle of a fan-out that began in `w`: `stored` lists the clients
that have the message in their queues by now. -/
structure Fanned (seen : List Visit) (acc : FanOut) (stored : List ClientPtr) : Prop where
  state : acc.1.state = w.state
  pollSet : acc.1.pollSet = w.pollSet
  openFds : acc.1.openFds = w.openFds
  distinctRecipients : acc.2.Nodup
  distinctStored : stored.Nodup
  reached : ∀ p, p ∈ acc.2 ↔ Reached w seen p
  kept : ∀ p, p ∈ stored ↔ Kept w seen p
  records : ∀ p, acc.1.clientHeap.read p = (w.clientHeap.read p).map fun c =>
    if p ∈ stored then { c with lostMessages := c.lostMessages ++ [message] } else c
  messages : acc.1.messageHeap = w.messageHeap.set message { m with c := stored.length }
  output : acc.1.output = w.output ++ acc.2.reverse.filterMap (sendTo w m)

variable {w message m} {seen : List Visit} {acc : FanOut} {stored : List ClientPtr}
  {p : ClientPtr} {pattern : Bytes}

private theorem reached_snoc {c : TcpClient} (cell : w.clientHeap.read p = some c) (q : ClientPtr) :
    Reached w (seen ++ [(p, pattern)]) q ↔
      Reached w seen q ∨ q = p ∧ c.connected = true ∧ c.topics.contains pattern = true := by
  constructor
  · rintro ⟨d, read, connected, used, member, topic⟩
    rw [List.mem_append, List.mem_singleton, Prod.mk.injEq] at member
    rcases member with old | ⟨rfl, rfl⟩
    · exact .inl ⟨d, read, connected, used, old, topic⟩
    · rw [cell, Option.some.injEq] at read
      subst read
      exact .inr ⟨rfl, connected, topic⟩
  · rintro (⟨d, read, connected, used, member, topic⟩ | ⟨rfl, connected, topic⟩)
    · exact ⟨d, read, connected, used, List.mem_append_left _ member, topic⟩
    · exact ⟨c, cell, connected, pattern, by simp, topic⟩

private theorem kept_snoc {c : TcpClient} (cell : w.clientHeap.read p = some c) (q : ClientPtr) :
    Kept w (seen ++ [(p, pattern)]) q ↔
      Kept w seen q ∨ q = p ∧ c.connected = false ∧ c.topics[pattern]? = some true := by
  constructor
  · rintro ⟨d, read, lost, used, member, flag⟩
    rw [List.mem_append, List.mem_singleton, Prod.mk.injEq] at member
    rcases member with old | ⟨rfl, rfl⟩
    · exact .inl ⟨d, read, lost, used, old, flag⟩
    · rw [cell, Option.some.injEq] at read
      subst read
      exact .inr ⟨rfl, lost, flag⟩
  · rintro (⟨d, read, lost, used, member, flag⟩ | ⟨rfl, lost, flag⟩)
    · exact ⟨d, read, lost, used, List.mem_append_left _ member, flag⟩
    · exact ⟨c, cell, lost, pattern, by simp, flag⟩

/-- A visit that brings nothing new leaves everything as it is. -/
private theorem Fanned.skip (fanned : Fanned w message m seen acc stored) (c : TcpClient)
    (cell : w.clientHeap.read p = some c)
    (reached : c.connected = true → c.topics.contains pattern = true → p ∈ acc.2)
    (kept : c.connected = false → c.topics[pattern]? = some true → p ∈ stored) :
    Fanned w message m (seen ++ [(p, pattern)]) acc stored := by
  refine { fanned with reached := ?_, kept := ?_ }
  · intro q
    rw [reached_snoc cell, ← fanned.reached]
    constructor
    · exact .inl
    · rintro (old | ⟨rfl, connected, topic⟩)
      · exact old
      · exact reached connected topic
  · intro q
    rw [kept_snoc cell, ← fanned.kept]
    constructor
    · exact .inl
    · rintro (old | ⟨rfl, lost, flag⟩)
      · exact old
      · exact kept lost flag

/-- A first visit to a connected client sends the message. -/
private theorem Fanned.send (fanned : Fanned w message m seen acc stored) (c : TcpClient)
    (cell : w.clientHeap.read p = some c) (connected : c.connected = true)
    (topic : c.topics.contains pattern = true) (new : p ∉ acc.2) :
    Fanned w message m (seen ++ [(p, pattern)])
      (acc.1.emit (.deliver c.id c.fd m.len m.buff), p :: acc.2) stored := by
  refine { fanned with
    distinctRecipients := List.nodup_cons.mpr ⟨new, fanned.distinctRecipients⟩
    reached := ?_
    kept := ?_
    output := ?_ }
  · intro q
    rw [reached_snoc cell, ← fanned.reached, List.mem_cons]
    constructor
    · rintro (rfl | old)
      · exact .inr ⟨rfl, connected, topic⟩
      · exact .inl old
    · rintro (old | ⟨rfl, _⟩)
      · exact .inr old
      · exact .inl rfl
  · intro q
    -- A connected client is never stored.
    rw [kept_snoc cell, ← fanned.kept]
    simp [connected]
  · have sent : sendTo w m p = some (.deliver c.id c.fd m.len m.buff) := by
      rw [sendTo, cell]
      rfl
    simp [World.emit, fanned.output, sent]

/-- A first visit to a disconnected client with the flag set stores it. -/
private theorem Fanned.store (fanned : Fanned w message m seen acc stored) (c : TcpClient)
    (cell : w.clientHeap.read p = some c) (lost : c.connected = false)
    (flag : c.topics[pattern]? = some true) (new : p ∉ stored) :
    Fanned w message m (seen ++ [(p, pattern)])
      ((acc.1.setMessage message { m with c := stored.length + 1 }).setClient p
        { c with lostMessages := c.lostMessages ++ [message] }, acc.2) (p :: stored) := by
  refine { fanned with
    distinctStored := List.nodup_cons.mpr ⟨new, fanned.distinctStored⟩
    reached := ?_
    kept := ?_
    records := ?_
    messages := ?_ }
  · intro q
    -- Nothing is sent to a disconnected client.
    rw [reached_snoc cell, ← fanned.reached]
    simp [lost]
  · intro q
    rw [kept_snoc cell, ← fanned.kept, List.mem_cons]
    constructor
    · rintro (rfl | old)
      · exact .inr ⟨rfl, lost, flag⟩
      · exact .inl old
    · rintro (old | ⟨rfl, _⟩)
      · exact .inr old
      · exact .inl rfl
  · intro q
    rw [World.setClient_clientHeap, World.setMessage_clientHeap, Heap.read_set]
    by_cases same : q = p
    · subst same
      rw [if_pos rfl, cell]
      simp
    · rw [if_neg same, fanned.records]
      simp [same]
  · rw [World.setClient_messageHeap, World.setMessage_messageHeap, fanned.messages, Heap.set_set,
      List.length_cons]
    rfl

private theorem getD_flag_iff (c : TcpClient) :
    c.topics.getD pattern false = true ↔ c.topics[pattern]? = some true := by
  rw [TreeMap.getD_eq_getD_getElem?]
  cases c.topics[pattern]? <;> simp

private theorem contains_of_flag (c : TcpClient) (flag : c.topics[pattern]? = some true) :
    c.topics.contains pattern = true := by
  rw [TreeMap.contains_eq_isSome_getElem?, flag]
  rfl

/-- What the body of the inner loop does, whoever is visited. -/
theorem fanOutClient_fanned (fanned : Fanned w message m seen acc stored)
    (live : (w.clientHeap.read p).isSome)
    (fresh : ∀ c, w.clientHeap.read p = some c → message ∉ c.lostMessages) :
    ∃ acc' stored', fanOutClient message pattern acc p = some acc' ∧
      Fanned w message m (seen ++ [(p, pattern)]) acc' stored' := by
  obtain ⟨c, cell⟩ := Option.isSome_iff_exists.mp live
  have current := fanned.records p
  rw [cell, Option.map_some] at current
  -- The queue is the only part of a record that the loops change.
  generalize now : (if p ∈ stored then
    { c with lostMessages := c.lostMessages ++ [message] } else c) = d at current
  have shape : d.connected = c.connected ∧ d.topics = c.topics ∧ d.id = c.id ∧ d.fd = c.fd ∧
      (message ∈ d.lostMessages ↔ p ∈ stored) := by
    rw [← now]
    split
    next queued => exact ⟨rfl, rfl, rfl, rfl, by simp [queued]⟩
    next absent => exact ⟨rfl, rfl, rfl, rfl, by simp [absent, fresh c cell]⟩
  obtain ⟨connected, topics, id, fd, queued⟩ := shape
  have counted : acc.1.messageHeap.read message = some { m with c := stored.length } := by
    rw [fanned.messages, Heap.read_set_self]
  simp only [fanOutClient, current, Option.bind_eq_bind, Option.bind_some, connected, topics, id, fd,
    counted]
  by_cases topic : c.topics.contains pattern = true
  · by_cases online : c.connected = true
    · by_cases before : p ∈ acc.2
      · refine ⟨acc, stored, by simp [topic, online, before], fanned.skip c cell ?_ ?_⟩
        · intro _ _
          exact before
        · simp [online]
      · exact ⟨_, stored, by simp [topic, online, before], fanned.send c cell online topic before⟩
    · have offline : c.connected = false := by simpa using online
      by_cases flag : c.topics[pattern]? = some true
      · have set : c.topics.getD pattern false = true := (getD_flag_iff c).mpr flag
        by_cases before : p ∈ stored
        · refine ⟨acc, stored, by simp [topic, offline, set, queued.mpr before],
            fanned.skip c cell ?_ ?_⟩
          · simp [offline]
          · intro _ _
            exact before
        · have absent : message ∉ d.lostMessages := fun inside => before (queued.mp inside)
          have same : d = c := by rw [← now, if_neg before]
          refine ⟨_, p :: stored, ?_, fanned.store c cell offline flag before⟩
          rw [if_neg (by simp [topic]), if_neg online, if_pos set, if_neg absent, same]
          rfl
      · have unset : ¬ c.topics.getD pattern false = true := fun set => flag ((getD_flag_iff c).mp set)
        refine ⟨acc, stored, by simp [topic, offline, unset], fanned.skip c cell ?_ ?_⟩
        · simp [offline]
        · intro _ set
          exact absurd set flag
  · -- Not subscribed: a stale entry of the vector.
    refine ⟨acc, stored, by simp [topic], fanned.skip c cell ?_ ?_⟩
    · intro _ subscribed
      exact absurd subscribed topic
    · intro _ flag
      exact absurd (contains_of_flag c flag) topic

/-! ## The whole fan-out -/

/-- What `process_udp_message` does, in terms of the clients that get the message. -/
structure Routed (w : World) (message : MessagePtr) (d : Datagram) (topic : Bytes)
    (recipients stored : List ClientPtr) (w' : World) : Prop where
  state : w'.state = w.state
  pollSet : w'.pollSet = w.pollSet
  openFds : w'.openFds = w.openFds
  distinctRecipients : recipients.Nodup
  distinctStored : stored.Nodup
  reached : ∀ p, p ∈ recipients ↔ ∃ c, w.clientHeap.read p = some c ∧ c.connected = true ∧
    ∃ pattern, topicMatchesPattern topic pattern = some true ∧ p ∈ w.subscribers pattern ∧
      c.topics.contains pattern = true
  kept : ∀ p, p ∈ stored ↔ ∃ c, w.clientHeap.read p = some c ∧ c.connected = false ∧
    ∃ pattern, topicMatchesPattern topic pattern = some true ∧ p ∈ w.subscribers pattern ∧
      c.topics[pattern]? = some true
  records : ∀ p, w'.clientHeap.read p = (w.clientHeap.read p).map fun c =>
    if p ∈ stored then { c with lostMessages := c.lostMessages ++ [message] } else c
  messages : w'.messageHeap =
    if stored = [] then (w.messageHeap.alloc message d.message).free message
    else w.messageHeap.alloc message { d.message with c := stored.length }
  output : w'.output = w.output ++ recipients.filterMap (sendTo w d.message)

private theorem Fanned.begin (w : World) (message : MessagePtr) (m : StoredMessage)
    (unreferenced : m.c = 0) :
    Fanned { w with messageHeap := w.messageHeap.alloc message m } message m []
      ({ w with messageHeap := w.messageHeap.alloc message m }, []) [] := by
  refine ⟨rfl, rfl, rfl, List.nodup_nil, List.nodup_nil, ?_, ?_, ?_, ?_, by simp⟩
  · intro p
    simp [Reached]
  · intro p
    simp [Kept]
  · intro p
    simp
  · have same : { m with c := (([] : List ClientPtr).length : Int) } = m := by
      rw [List.length_nil, Int.natCast_zero, ← unreferenced]
    rw [Heap.alloc_set, same]

/-- Both loops together: one visit after the other, from live record to live record. -/
private theorem fanOut_fanned (topic : Bytes) (begin : Fanned w message m [] (w, []) [])
    (live : ∀ v ∈ visits topic w.state.subscriptions.toList, (w.clientHeap.read v.1).isSome)
    (fresh : ∀ p c, w.clientHeap.read p = some c → message ∉ c.lostMessages) :
    ∃ acc stored,
      w.state.subscriptions.toList.foldlM (fanOutPattern message topic) (w, []) = some acc ∧
      Fanned w message m (visits topic w.state.subscriptions.toList) acc stored := by
  obtain ⟨acc, run, stored, fanned⟩ := foldlM_keeps
    (fun acc v => fanOutClient message v.2 acc v.1)
    (fun seen acc => ∃ stored, Fanned w message m seen acc stored)
    (visits topic w.state.subscriptions.toList) [] (w, []) ⟨[], begin⟩ (by
      rintro seen acc ⟨p, pattern⟩ member ⟨stored, fanned⟩
      obtain ⟨acc', stored', stepped, next⟩ :=
        fanOutClient_fanned fanned (live _ member) (fresh p)
      exact ⟨acc', stepped, stored', next⟩)
  rw [List.nil_append] at fanned
  exact ⟨acc, stored, by rw [fanOut_visits, run], fanned⟩

/-- The handler gets through and routes the datagram, if the vectors point to live
records and the new message has an address of its own. -/
theorem processUdpMessage_routed (w : World) (stale : Nat → UInt8) (message : MessagePtr)
    (d : Datagram) (live : ∀ pattern, ∀ p ∈ w.subscribers pattern, (w.clientHeap.read p).isSome)
    (fresh : ∀ p c, w.clientHeap.read p = some c → message ∉ c.lostMessages) :
    ∃ w' recipients stored, processUdpMessage stale message d w = some w' ∧
      Routed w message d (currentTopic stale d.payload) recipients stored w' := by
  generalize topicIs : currentTopic stale d.payload = topic
  have begin := Fanned.begin w message d.message rfl
  generalize allocated : { w with messageHeap := w.messageHeap.alloc message d.message } = w₀
    at begin
  have records : w₀.clientHeap = w.clientHeap := by rw [← allocated]
  have table : w₀.state = w.state := by rw [← allocated]
  have visited : ∀ v ∈ visits topic w₀.state.subscriptions.toList,
      (w₀.clientHeap.read v.1).isSome := by
    rintro ⟨p, pattern⟩ member
    rw [table, mem_visits] at member
    rw [records]
    exact live pattern p member.2
  -- The loops run on the world with the new message in its heap.
  obtain ⟨⟨w₁, recipients⟩, stored, run, fanned⟩ := fanOut_fanned topic begin visited
    (by rw [records]; exact fresh)
  rw [table] at run fanned
  have heap : w₁.messageHeap = w.messageHeap.alloc message { d.message with c := stored.length } := by
    have messages := fanned.messages
    rw [← allocated, Heap.alloc_set] at messages
    exact messages
  have members : ∀ p pattern, (p, pattern) ∈ visits topic w.state.subscriptions.toList ↔
      topicMatchesPattern topic pattern = some true ∧ p ∈ w.subscribers pattern := by
    intro p pattern
    rw [mem_visits, World.subscribers]
  have sent : sendTo w₀ d.message = sendTo w d.message := by
    funext p
    rw [sendTo, sendTo, records]
  refine ⟨if stored = [] then { w₁ with messageHeap := w₁.messageHeap.free message } else w₁,
    recipients.reverse, stored, ?_, ?_⟩
  · have counted : w₁.messageHeap.read message = some { d.message with c := stored.length } := by
      rw [heap, Heap.read_alloc_self]
    simp only [processUdpMessage, allocated, topicIs, run, Option.bind_eq_bind, Option.bind_some,
      counted]
    by_cases empty : stored = [] <;> simp [empty]
  · -- Freeing the message touches nothing but its own cell.
    have routed : ∀ heap', heap' = (if stored = [] then
        (w.messageHeap.alloc message d.message).free message
        else w.messageHeap.alloc message { d.message with c := stored.length }) →
        Routed w message d topic recipients.reverse stored { w₁ with messageHeap := heap' } := by
      intro heap' final
      refine ⟨fanned.state.trans table, ?_, ?_, List.nodup_reverse.mpr fanned.distinctRecipients,
        fanned.distinctStored, ?_, ?_, ?_, final, ?_⟩
      · rw [fanned.pollSet, ← allocated]
      · rw [fanned.openFds, ← allocated]
      · intro p
        rw [List.mem_reverse, fanned.reached]
        simp only [Reached, records, members, and_assoc]
      · intro p
        rw [fanned.kept]
        simp only [Kept, records, members, and_assoc]
      · rw [← records]
        exact fanned.records
      · rw [fanned.output, sent, ← allocated]
    split
    next empty =>
      apply routed
      rw [if_pos empty, heap, empty]
      rfl
    next some_stored =>
      apply routed
      rw [if_neg some_stored, heap]

end

end PubSub.Properties
