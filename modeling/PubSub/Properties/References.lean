import PubSub.Properties.Tables

/-!
# Reference counts of stored messages

A message is shared by the queues it is stored in and counts them. Since every
count is exact, no handler follows a dangling pointer: the server never gets stuck.
-/
namespace PubSub.Properties

open General Std

/-- How often the queues of all clients contain a message. -/
def refs (w : World) : MessagePtr → Nat := Heap.heldBy w.queue w.clientPtrs

structure References (w : World) : Prop where
  exact : Heap.Exact StoredMessage.c w.messageHeap (refs w)
  collected : Heap.Collected w.messageHeap (refs w)
  distinct : ∀ p c, w.clientHeap.read p = some c → c.lostMessages.Nodup
  balanced : w.messageHeap.Balanced

theorem References.start (udpFd tcpListenFd : Fd) : References (.start udpFd tcpListenFd) := by
  have nobody : (World.start udpFd tcpListenFd).clientPtrs = [] := rfl
  constructor
  · constructor
    · intro p m read
      cases read
    · intro p referenced
      simp [refs, nobody, Heap.heldBy] at referenced
  · intro p live
    cases live
  · intro p c cell
    cases cell
  · exact Heap.balanced_empty

/-- Nothing the counts are about has changed. -/
structure SameQueues (w w' : World) : Prop where
  clients : w'.state.clients = w.state.clients
  records : ∀ p, (w'.clientHeap.read p).map TcpClient.lostMessages =
    (w.clientHeap.read p).map TcpClient.lostMessages
  messages : w'.messageHeap = w.messageHeap

theorem queue_eq (w : World) (p : ClientPtr) :
    w.queue p = ((w.clientHeap.read p).map TcpClient.lostMessages).getD [] := by
  simp only [World.queue]
  cases w.clientHeap.read p <;> rfl

theorem queue_of_read {w : World} {p : ClientPtr} {c : TcpClient} (cell : w.clientHeap.read p = some c) :
    w.queue p = c.lostMessages := by
  rw [queue_eq, cell]
  rfl

theorem References.congr {w w' : World} (references : References w) (same : SameQueues w w') :
    References w' := by
  have queues : w'.queue = w.queue := by
    funext p
    rw [queue_eq, queue_eq, same.records]
  have counts : refs w' = refs w := by
    rw [refs, refs, queues, World.clientPtrs, World.clientPtrs, same.clients]
  constructor
  · rw [same.messages, counts]
    exact references.exact
  · rw [same.messages, counts]
    exact references.collected
  · intro p c cell
    have record := same.records p
    rw [cell, Option.map_some, eq_comm, Option.map_eq_some_iff] at record
    obtain ⟨d, read, queue⟩ := record
    rw [← queue]
    exact references.distinct p d read
  · rw [same.messages]
    exact references.balanced

/-! ## The clients as holders -/

theorem mem_clientPtrs {w : World} (tables : Tables w) (p : ClientPtr) :
    p ∈ w.clientPtrs ↔ (w.clientHeap.read p).isSome := by
  have entry := mem_valuesOf w.state.clients p
  rw [World.clientPtrs, ← valuesOf, entry]
  constructor
  · rintro ⟨id, found⟩
    obtain ⟨c, cell, _⟩ := tables.own id p found
    rw [cell]
    rfl
  · intro alive
    obtain ⟨c, cell⟩ := Option.isSome_iff_exists.mp alive
    exact ⟨c.id, tables.only p c cell⟩

theorem clientPtrs_nodup {w : World} (tables : Tables w) : w.clientPtrs.Nodup := by
  apply valuesOf_nodup
  intro id id' p first second
  obtain ⟨c, cell, name⟩ := tables.own id p first
  obtain ⟨d, read, name'⟩ := tables.own id' p second
  rw [cell, Option.some.injEq] at read
  rw [← name, ← name', read]

/-- What is in a queue is alive. -/
theorem References.live {w : World} (references : References w) (tables : Tables w) (p : ClientPtr)
    (c : TcpClient) (cell : w.clientHeap.read p = some c) :
    ∀ msg ∈ c.lostMessages, (w.messageHeap.read msg).isSome := by
  intro msg member
  apply references.exact.live
  rw [refs, Heap.heldBy_ne_zero]
  refine ⟨p, (mem_clientPtrs tables p).mpr (by rw [cell]; rfl), ?_⟩
  rw [queue_of_read cell]
  exact member

/-- An address that is not in use is in no queue. -/
theorem References.fresh {w : World} (references : References w) (tables : Tables w)
    (message : MessagePtr) (unused : w.messageHeap.read message = none) :
    ∀ p c, w.clientHeap.read p = some c → message ∉ c.lostMessages := by
  intro p c cell member
  have alive := references.live tables p c cell message member
  rw [unused] at alive
  cases alive

/-! ## Requests -/

/-- The messages can be released, and what is left is counted exactly. -/
theorem References.release {w : World} (references : References w) (tables : Tables w)
    (p : ClientPtr) (c : TcpClient) (cell : w.clientHeap.read p = some c) (queue' : ClientPtr → List MessagePtr)
    (emptied : queue' p = []) (others : ∀ q, q ≠ p → queue' q = w.queue q) :
    ∃ heap, releaseMessages w.messageHeap c.lostMessages = some heap ∧
      Heap.ReleasedAll StoredMessage.c w.messageHeap heap c.lostMessages (refs w)
        (Heap.heldBy queue' w.clientPtrs) := by
  apply references.exact.releaseAll _ (fun _ => rfl)
  -- The counts fall by what the emptied queue held.
  intro msg
  have member : p ∈ w.clientPtrs := (mem_clientPtrs tables p).mpr (by rw [cell]; rfl)
  have updated := Heap.heldBy_update (clientPtrs_nodup tables) p member others msg
  rw [emptied, queue_of_read cell] at updated
  simpa [refs] using updated.symm

theorem References.reconnected {w : World} (references : References w) (tables : Tables w)
    {id : Bytes} {fd : Fd} {p : ClientPtr} {c : TcpClient} {heap : Heap StoredMessage}
    (cell : w.clientHeap.read p = some c)
    (released : releaseMessages w.messageHeap c.lostMessages = some heap) :
    References (reconnected w id fd p c heap) := by
  have records : ∀ q, (PubSub.reconnected w id fd p c heap).clientHeap.read q =
      if q = p then some { c with fd := fd, connected := true, lostMessages := [] }
      else w.clientHeap.read q := by
    intro q
    simp only [PubSub.reconnected, announceClient_clientHeap, Heap.read_set]
  have emptied : (PubSub.reconnected w id fd p c heap).queue p = [] := by
    rw [queue_eq, records, if_pos rfl]
    rfl
  have others : ∀ q, q ≠ p → (PubSub.reconnected w id fd p c heap).queue q = w.queue q := by
    intro q other
    rw [queue_eq, queue_eq, records, if_neg other]
  have holders : (PubSub.reconnected w id fd p c heap).clientPtrs = w.clientPtrs := by
    simp only [World.clientPtrs, PubSub.reconnected, announceClient_clients]
  obtain ⟨left, same, all⟩ := references.release tables p c cell _ emptied others
  rw [released, Option.some.injEq] at same
  subst same
  rw [← holders] at all
  refine ⟨all.exact, all.collected references.collected, ?_, all.balanced references.balanced⟩
  intro q d read
  rw [records] at read
  split at read
  · cases read
    exact List.nodup_nil
  · exact references.distinct q d read

theorem References.registered {w : World} (references : References w)
    (id : Bytes) (fd : Fd) (fresh : ClientPtr) (new : w.state.clients[id]? = none)
    (unused : w.clientHeap.read fresh = none) : References (registered w id fd fresh) := by
  have queues : (PubSub.registered w id fd fresh).queue = w.queue := by
    funext q
    rw [queue_eq, queue_eq, registered_read]
    split
    next same => rw [same, unused]; rfl
    · rfl
  -- The new client holds nothing, wherever its id stands in the map.
  have holders : (PubSub.registered w id fd fresh).clientPtrs.Perm (fresh :: w.clientPtrs) := by
    rw [World.clientPtrs, registered_clients]
    exact valuesOf_insert_new w.state.clients id fresh new
  have counts : refs (PubSub.registered w id fd fresh) = refs w := by
    have empty : w.queue fresh = [] := by
      rw [queue_eq, unused]
      rfl
    funext msg
    rw [refs, refs, queues, Heap.heldBy_perm holders]
    simp [Heap.heldBy, empty]
  constructor
  · rw [counts, registered_messageHeap]
    exact references.exact
  · rw [counts, registered_messageHeap]
    exact references.collected
  · intro q d read
    rw [registered_read] at read
    split at read
    · cases read
      exact List.nodup_nil
    · exact references.distinct q d read
  · rw [registered_messageHeap]
    exact references.balanced

/-- Another value of a record with the same queue. -/
theorem SameQueues.ofWrite {w w' : World} {p : ClientPtr} {c c' : TcpClient}
    (cell : w.clientHeap.read p = some c) (cells : w'.clientHeap = w.clientHeap.set p c')
    (same : c'.lostMessages = c.lostMessages) (clients : w'.state.clients = w.state.clients)
    (messages : w'.messageHeap = w.messageHeap) : SameQueues w w' := by
  refine ⟨clients, ?_, messages⟩
  intro q
  rw [cells]
  exact Heap.map_read_set TcpClient.lostMessages _ p q c c' cell same

theorem References.request {w w' : World} {fd : Fd} {r : TcpRequest} {index : Nat}
    {fresh : ClientPtr} (references : References w) (tables : Tables w)
    (unused : w.clientHeap.read fresh = none) (outcome : RequestOutcome fd r index fresh w w') :
    References w' := by
  cases outcome with
  | rejected type record connected => exact references.congr ⟨rfl, fun _ => rfl, rfl⟩
  | reconnected type record lost released => exact references.reconnected tables record.cell released
  | registered type new => exact references.registered _ _ _ new unused
  | subscribed type record vector => exact references.congr (.ofWrite record.cell rfl rfl rfl rfl)
  | unsubscribed type record vector => exact references.congr (.ofWrite record.cell rfl rfl rfl rfl)
  | exited type record => exact references.congr (.ofWrite record.cell rfl rfl rfl rfl)
  | exitedUnknown type new => exact references.congr ⟨rfl, fun _ => rfl, rfl⟩
  | ignored reason => exact references

theorem References.disconnect {w w' : World} {fd : Fd} {index : Nat} (references : References w)
    (outcome : DisconnectOutcome fd index w w') : References w' := by
  cases outcome with
  | marked named record same first => exact references.congr (.ofWrite record.cell rfl rfl rfl rfl)
  | unmarked reason => exact references.congr ⟨rfl, fun _ => rfl, rfl⟩

/-! ## Datagrams -/

/-- The message heap after a datagram, cell by cell. -/
theorem Routed.read {w w' : World} {message : MessagePtr} {d : Datagram} {topic : Bytes}
    {recipients stored : List ClientPtr} (routed : Routed w message d topic recipients stored w')
    (unused : w.messageHeap.read message = none) (q : MessagePtr) :
    w'.messageHeap.read q =
      if q = message ∧ stored ≠ [] then some { d.message with c := stored.length }
      else w.messageHeap.read q := by
  rw [routed.messages]
  by_cases empty : stored = []
  · rw [if_pos empty, Heap.read_free, Heap.read_alloc]
    by_cases here : q = message
    · simp [here, empty, unused]
    · simp [here]
  · rw [if_neg empty, Heap.read_alloc]
    by_cases here : q = message <;> simp [here, empty]

/-- The message is referenced once by each client that stored it. -/
theorem refs_routed {w w' : World} {message : MessagePtr} {d : Datagram} {topic : Bytes}
    {recipients stored : List ClientPtr} (tables : Tables w)
    (routed : Routed w message d topic recipients stored w') (msg : MessagePtr) :
    refs w' msg = refs w msg + if msg = message then stored.length else 0 := by
  have holders : w'.clientPtrs = w.clientPtrs := by
    rw [World.clientPtrs, World.clientPtrs, routed.state]
  -- Each queue that takes the message up gets it once, at its end.
  have queues : ∀ q ∈ w.clientPtrs,
      w'.queue q = w.queue q ++ if decide (q ∈ stored) then [message] else [] := by
    intro q member
    obtain ⟨c, cell⟩ := Option.isSome_iff_exists.mp ((mem_clientPtrs tables q).mp member)
    rw [queue_eq, routed.records, cell, queue_of_read cell, Option.map_some, Option.map_some]
    by_cases kept : q ∈ stored <;> simp [kept]
  have inside : ∀ q ∈ stored, q ∈ w.clientPtrs := by
    intro q member
    obtain ⟨c, cell, _⟩ := (routed.kept q).mp member
    exact (mem_clientPtrs tables q).mpr (by rw [cell]; rfl)
  have total := Heap.countP_mem (clientPtrs_nodup tables) routed.distinctStored inside
  rw [refs, holders, Heap.heldBy_append message (fun q => decide (q ∈ stored)) queues, total, refs]

theorem References.routed {w w' : World} {message : MessagePtr} {d : Datagram} {topic : Bytes}
    {recipients stored : List ClientPtr} (references : References w) (tables : Tables w)
    (unused : w.messageHeap.read message = none)
    (routed : Routed w message d topic recipients stored w') : References w' := by
  have new : refs w message = 0 := by
    by_contra referenced
    have alive := references.exact.live message referenced
    rw [unused] at alive
    cases alive
  have counts := refs_routed tables routed
  have cells := routed.read unused
  constructor
  · constructor
    · intro q m read
      rw [cells] at read
      rw [counts]
      split at read
      next here =>
        cases read
        -- The counter of the new message is the number of queues it went into.
        rw [here.1, new, if_pos rfl, Nat.zero_add]
      next elsewhere =>
        rw [if_neg (Heap.ne_of_read read unused), Nat.add_zero]
        exact references.exact.counts q m read
    · intro q referenced
      rw [counts] at referenced
      rw [cells]
      split
      · rfl
      next elsewhere =>
        apply references.exact.live
        split at referenced
        next here =>
          -- Nobody stored the message, so it has been deleted and adds nothing.
          have empty : stored = [] := by
            by_contra some_stored
            exact elsewhere ⟨here, some_stored⟩
          simpa [empty] using referenced
        · exact referenced
  · intro q live
    rw [cells] at live
    rw [counts]
    split at live
    next here =>
      have positive := List.length_pos_iff.mpr here.2
      rw [if_pos here.1]
      omega
    · have before := references.collected q live
      omega
  · intro q c' cell'
    have record := routed.records q
    rw [cell', eq_comm, Option.map_eq_some_iff] at record
    obtain ⟨c, cell, rfl⟩ := record
    have distinct := references.distinct q c cell
    split
    · have absent := references.fresh tables message unused q c cell
      simpa using distinct.concat absent
    · exact distinct
  · rw [routed.messages]
    split
    · exact (references.balanced.alloc _ _ unused).free _ (by simp)
    · exact references.balanced.alloc _ _ unused

/-! ## No handler gets stuck -/

structure Healthy (w : World) : Prop where
  tables : Tables w
  references : References w

theorem handleConnect_total {w : World} (healthy : Healthy w) (fd : Fd) (clientId : Bytes) (index : Nat)
    (fresh : ClientPtr) : ∃ w', handleConnect fd clientId index fresh w = some w' := by
  simp only [handleConnect]
  split
  next p entry =>
    obtain ⟨c, record⟩ := record_of_entry healthy.tables entry
    simp only [record.cell, Option.bind_eq_bind, Option.bind_some, flush_eq]
    split
    · exact ⟨_, rfl⟩
    · -- The flush gets through because every count is exact.
      obtain ⟨heap, released, _⟩ := healthy.references.release healthy.tables p c record.cell
        (fun q => if q = p then [] else w.queue q) (if_pos rfl) (fun q other => if_neg other)
      simp [released]
  · exact ⟨_, rfl⟩

theorem handleClientRequest_total {w : World} (healthy : Healthy w) (fd : Fd) (r : TcpRequest)
    (index : Nat) (fresh : ClientPtr) : ∃ w', handleClientRequest fd r index fresh w = some w' := by
  have record : ∀ p, w.state.clients[r.clientId]? = some p → ∃ c, w.clientHeap.read p = some c := by
    intro p entry
    obtain ⟨c, known⟩ := record_of_entry healthy.tables entry
    exact ⟨c, known.cell⟩
  simp only [handleClientRequest]
  -- A branch can only get stuck where it follows the pointer to the record.
  cases r.type with
  | message => exact handleConnect_total healthy fd r.clientId index fresh
  | subscribe =>
    simp only [handleSubscribe]
    split
    next p entry =>
      obtain ⟨c, cell⟩ := record p entry
      simp only [cell, Option.bind_eq_bind, Option.bind_some]
      exact ⟨_, rfl⟩
    · exact ⟨_, rfl⟩
  | unsubscribe =>
    simp only [handleUnsubscribe]
    split
    next p entry =>
      obtain ⟨c, cell⟩ := record p entry
      simp only [cell, Option.bind_eq_bind, Option.bind_some]
      exact ⟨_, rfl⟩
    · exact ⟨_, rfl⟩
  | exit =>
    simp only [handleExit]
    split
    next p entry =>
      obtain ⟨c, cell⟩ := record p entry
      simp only [cell, Option.bind_eq_bind, Option.bind_some]
      exact ⟨_, rfl⟩
    · exact ⟨_, rfl⟩
  | other word => exact ⟨_, rfl⟩

theorem findClientByFd_total (heap : Heap TcpClient) (fd : Fd) (entries : List (Bytes × ClientPtr))
    (alive : ∀ entry ∈ entries, (heap.read entry.2).isSome) :
    ∃ id, findClientByFd heap fd entries = some id := by
  induction entries with
  | nil => exact ⟨[], rfl⟩
  | cons entry entries ih =>
    rw [List.forall_mem_cons] at alive
    obtain ⟨c, cell⟩ := Option.isSome_iff_exists.mp alive.1
    obtain ⟨id, found⟩ := ih alive.2
    simp only [findClientByFd, cell, Option.bind_eq_bind, Option.bind_some]
    split
    · exact ⟨_, rfl⟩
    · exact ⟨id, found⟩

theorem handleClientDisconnect_total {w : World} (healthy : Healthy w) (fd : Fd) (index : Nat) :
    ∃ w', handleClientDisconnect fd index w = some w' := by
  have alive : ∀ entry ∈ w.state.clients.toList, (w.clientHeap.read entry.2).isSome := by
    rintro ⟨id, p⟩ member
    obtain ⟨c, cell, _⟩ :=
      healthy.tables.own id p (TreeMap.mem_toList_iff_getElem?_eq_some.mp member)
    rw [cell]
    rfl
  obtain ⟨id, found⟩ := findClientByFd_total _ fd _ alive
  simp only [handleClientDisconnect, found, Option.bind_eq_bind, Option.bind_some]
  split
  next named =>
    cases findClientByFd_search _ _ _ _ found with
    | @hit front back id p c shape cell same before =>
      have entry : w.state.clients[id]? = some p := lookup_of_split _ _ _ _ _ shape
      simp [entry, cell]
    | miss none => exact absurd rfl named
  · exact ⟨_, rfl⟩

theorem processUdpMessage_total {w : World} (healthy : Healthy w) (stale : Nat → UInt8)
    (message : MessagePtr) (d : Datagram) (unused : w.messageHeap.read message = none) :
    ∃ w' recipients stored, processUdpMessage stale message d w = some w' ∧
      Routed w message d (currentTopic stale d.payload) recipients stored w' :=
  processUdpMessage_routed w stale message d healthy.tables.known
    (healthy.references.fresh healthy.tables message unused)

/-- What one event can do to a healthy server. -/
inductive Outcome (w : World) : Event → World → Prop
  | accepted {fd peer} : Outcome w (.accept fd peer) (handleNewConnection fd peer w)
  | requested {fd r fresh w'} : RequestOutcome fd r (w.indexOf fd) fresh w w' →
      Outcome w (.request fd r fresh) w'
  | lost {fd w'} : DisconnectOutcome fd (w.indexOf fd) w w' → Outcome w (.disconnect fd) w'
  | routed {d stale message recipients stored w'} :
      Routed w message d (currentTopic stale d.payload) recipients stored w' →
      Outcome w (.datagram d stale message) w'

theorem dispatch_outcome {w w' : World} {e : Event} (healthy : Healthy w) (enabled : e.Enabled w)
    (stepped : w.dispatch e = some w') : Outcome w e w' := by
  cases e with
  | accept fd peer =>
    cases stepped
    exact .accepted
  | request fd r fresh => exact .requested (handleClientRequest_outcome fd r _ fresh w w' stepped)
  | disconnect fd => exact .lost (handleClientDisconnect_outcome fd _ w w' stepped)
  | datagram d stale message =>
    obtain ⟨w'', recipients, stored, done, routed⟩ :=
      processUdpMessage_total healthy stale message d enabled
    have same : w'' = w' := Option.some.inj (done.symm.trans stepped)
    rw [same] at routed
    exact .routed routed

theorem dispatch_total {w : World} {e : Event} (healthy : Healthy w) (enabled : e.Enabled w) :
    ∃ w', w.dispatch e = some w' := by
  cases e with
  | accept fd peer => exact ⟨_, rfl⟩
  | request fd r fresh => exact handleClientRequest_total healthy fd r _ fresh
  | disconnect fd => exact handleClientDisconnect_total healthy fd _
  | datagram d stale message =>
    obtain ⟨w', _, _, done, _⟩ := processUdpMessage_total healthy stale message d enabled
    exact ⟨w', done⟩

theorem Healthy.step {w w' : World} {e : Event} (healthy : Healthy w) (enabled : e.Enabled w)
    (outcome : Outcome w e w') : Healthy w' := by
  obtain ⟨tables, references⟩ := healthy
  cases outcome with
  | accepted =>
    exact ⟨tables.congr ⟨rfl, rfl, fun _ => rfl⟩, references.congr ⟨rfl, fun _ => rfl, rfl⟩⟩
  | requested outcome =>
    exact ⟨tables.request enabled.2 outcome, references.request tables enabled.2 outcome⟩
  | lost outcome => exact ⟨tables.disconnect outcome, references.disconnect outcome⟩
  | routed routed => exact ⟨tables.congr routed.sameTables, references.routed tables enabled routed⟩

section

variable {udpFd tcpListenFd : Fd} {past : History} {w : World}

theorem healthy_of_run (run : (serverSystem udpFd tcpListenFd).Run past w) : Healthy w :=
  run.state_invariant ⟨Tables.start _ _, References.start _ _⟩
    (fun _ _ _ healthy enabled stepped =>
      healthy.step enabled (dispatch_outcome healthy enabled stepped))

/-- An induction over runs may use what is known of every reachable state. -/
theorem run_induction {P : History → World → Prop} (initial : P [] (.start udpFd tcpListenFd))
    (preserved : ∀ past w e w', (serverSystem udpFd tcpListenFd).Run past w → Healthy w →
      P past w → e.Enabled w → Outcome w e w' → P (past ++ [⟨w, e, w'⟩]) w')
    (run : (serverSystem udpFd tcpListenFd).Run past w) : P past w := by
  apply run.invariant initial
  intro past w e w' run holds enabled stepped
  have healthy := healthy_of_run run
  exact preserved past w e w' run healthy holds enabled (dispatch_outcome healthy enabled stepped)

end

end PubSub.Properties
