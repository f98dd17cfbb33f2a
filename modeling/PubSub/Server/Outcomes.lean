import PubSub.Server.Loop
import PubSub.General.Maps

/-!
# What the handlers of the TCP side can do

Every run of a handler that gets through is one of the outcomes below, and each
outcome names the state it leads to. All invariants are proved from these.
-/
namespace PubSub

open General Std

/-- The entry of a client id and the record it points to. -/
structure World.Record (w : World) (id : Bytes) (p : ClientPtr) (c : TcpClient) : Prop where
  entry : w.state.clients[id]? = some p
  cell : w.clientHeap.read p = some c

theorem World.Record.unique {w : World} {id : Bytes} {p q : ClientPtr} {c d : TcpClient}
    (first : w.Record id p c) (second : w.Record id q d) : p = q ∧ c = d := by
  have same : p = q := Option.some.inj (first.entry.symm.trans second.entry)
  subst same
  exact ⟨rfl, Option.some.inj (first.cell.symm.trans second.cell)⟩

theorem World.Record.not_absent {w : World} {id : Bytes} {p : ClientPtr} {c : TcpClient}
    (record : w.Record id p c) (absent : w.state.clients[id]? = none) : False := by
  have entry := record.entry
  rw [absent] at entry
  cases entry

/-- The record of a client id, if there is one. -/
def World.recordOf (w : World) (id : Bytes) : Option TcpClient :=
  w.state.clients[id]?.bind w.clientHeap.read

theorem World.Record.recordOf {w : World} {id : Bytes} {p : ClientPtr} {c : TcpClient}
    (record : w.Record id p c) : w.recordOf id = some c := by
  rw [World.recordOf, record.entry, Option.bind_some, record.cell]

theorem record_of_recordOf {w : World} {id : Bytes} {c : TcpClient} (known : w.recordOf id = some c) :
    ∃ p, w.Record id p c := by
  rw [World.recordOf, Option.bind_eq_some_iff] at known
  obtain ⟨p, entry, cell⟩ := known
  exact ⟨p, entry, cell⟩

/-! ## The line about a new client -/

section

variable (w : World) (clientId : Bytes) (fd : Fd)

@[simp] theorem announceClient_clients :
    (announceClient w clientId fd).state.clients = w.state.clients := by
  simp only [announceClient, addressEntry]
  split <;> rfl

@[simp] theorem announceClient_subscriptions :
    (announceClient w clientId fd).state.subscriptions = w.state.subscriptions := by
  simp only [announceClient, addressEntry]
  split <;> rfl

@[simp] theorem announceClient_pollSet : (announceClient w clientId fd).pollSet = w.pollSet := by
  simp only [announceClient, addressEntry]
  split <;> rfl

@[simp] theorem announceClient_clientHeap :
    (announceClient w clientId fd).clientHeap = w.clientHeap := by
  simp only [announceClient, addressEntry]
  split <;> rfl

@[simp] theorem announceClient_messageHeap :
    (announceClient w clientId fd).messageHeap = w.messageHeap := by
  simp only [announceClient, addressEntry]
  split <;> rfl

@[simp] theorem announceClient_openFds : (announceClient w clientId fd).openFds = w.openFds := by
  simp only [announceClient, addressEntry]
  split <;> rfl

/-- The inserting lookup changes nothing where there is an address. -/
theorem announceClient_addresses (known : (w.state.clientAddresses[fd]?).isSome) :
    (announceClient w clientId fd).state.clientAddresses = w.state.clientAddresses := by
  obtain ⟨peer, found⟩ := Option.isSome_iff_exists.mp known
  simp only [announceClient, addressEntry]
  rw [found]
  rfl

theorem announceClient_output :
    ∃ text, (announceClient w clientId fd).output = w.output ++ [.print text] := by
  simp only [announceClient, addressEntry]
  split <;> exact ⟨_, rfl⟩

end

/-! ## The flush of stored messages -/

/-- What is sent of a message; the reference count is not. -/
def StoredMessage.content (m : StoredMessage) : Int × Bytes := (m.len, m.buff)

theorem StoredMessage.dropRef_content (m : StoredMessage) : m.dropRef.content = m.content := rfl

/-- Sending the message behind a pointer. -/
def delivery (id : Bytes) (fd : Fd) (heap : Heap StoredMessage) (msg : MessagePtr) : Option Effect :=
  (heap.read msg).map fun m => .deliver id fd m.len m.buff

/-- Messages have their bodies for life. -/
theorem delivery_keeps (id : Bytes) (fd : Fd) (h h' : Heap StoredMessage) (msg : MessagePtr)
    (keeps : Heap.Keeps StoredMessage.content h h') (live : (h'.read msg).isSome) :
    delivery id fd h' msg = delivery id fd h msg := by
  obtain ⟨m', found'⟩ := Option.isSome_iff_exists.mp live
  obtain ⟨m, found, same⟩ := keeps msg m' found'
  simp only [StoredMessage.content, Prod.mk.injEq] at same
  simp only [delivery, found, found', Option.map_some, same.1, same.2]

abbrev releaseMessages (heap : Heap StoredMessage) (queue : List MessagePtr) :
    Option (Heap StoredMessage) :=
  heap.releaseAll StoredMessage.c StoredMessage.dropRef queue

/-- The loops that only release work on the heap alone. -/
theorem release_eq (queue : List MessagePtr) (w : World) :
    queue.foldlM releaseMessage w =
      (releaseMessages w.messageHeap queue).map fun h => { w with messageHeap := h } := by
  induction queue generalizing w with
  | nil => rfl
  | cons msg queue ih =>
    rw [releaseMessages, Heap.releaseAll, List.foldlM_cons, List.foldlM_cons, releaseMessage]
    cases w.messageHeap.release StoredMessage.c StoredMessage.dropRef msg with
    | none => rfl
    | some h => exact ih { w with messageHeap := h }

/-- The flush sends the queue in order and releases it. -/
theorem flush_eq (id : Bytes) (fd : Fd) (queue : List MessagePtr) (w : World) :
    queue.foldlM (flushMessage id fd) w =
      (releaseMessages w.messageHeap queue).map fun h =>
        { w with
          messageHeap := h
          output := w.output ++ queue.filterMap (delivery id fd w.messageHeap) } := by
  induction queue generalizing w with
  | nil => simp [releaseMessages, Heap.releaseAll]
  | cons msg queue ih =>
    rw [releaseMessages, Heap.releaseAll, List.foldlM_cons, List.foldlM_cons, flushMessage]
    simp only [releaseMessage]
    cases read : w.messageHeap.read msg with
    | none => simp [Heap.release, read]
    | some m =>
      -- Each round sends first and gives up the reference afterwards.
      cases released : w.messageHeap.release StoredMessage.c StoredMessage.dropRef msg with
      | none => simp [released]
      | some h =>
        have keeps : Heap.Keeps StoredMessage.content w.messageHeap h :=
          Heap.release_keeps StoredMessage.dropRef_content _ _ _ released
        simp only [Option.bind_eq_bind, Option.bind_some, World.emit_messageHeap, released, ih]
        change Option.map _ (releaseMessages h queue) = Option.map _ (releaseMessages h queue)
        cases rest : releaseMessages h queue with
        | none => rfl
        | some h' =>
          -- What is sent later in the loop has the content it had before the first release.
          have live := Heap.releaseAll_live queue h h' rest
          have same : queue.filterMap (delivery id fd h) =
              queue.filterMap (delivery id fd w.messageHeap) := by
            apply List.filterMap_congr
            intro q member
            exact delivery_keeps id fd _ _ q keeps (live q member)
          have first : delivery id fd w.messageHeap msg = some (.deliver id fd m.len m.buff) := by
            rw [delivery, read]
            rfl
          simp [World.emit, same, first]

/-! ## Requests -/

/-- The world after a reconnect that left the messages on `heap`. -/
def reconnected (w : World) (id : Bytes) (fd : Fd) (p : ClientPtr) (c : TcpClient)
    (heap : Heap StoredMessage) : World :=
  let a := announceClient w id fd
  { a with
    messageHeap := heap
    clientHeap := a.clientHeap.set p { c with fd := fd, connected := true, lostMessages := [] }
    output := a.output ++ c.lostMessages.filterMap (delivery id fd a.messageHeap) }

/-- The world after the first CONNECT of an id. -/
def registered (w : World) (id : Bytes) (fd : Fd) (fresh : ClientPtr) : World :=
  let a := announceClient w id fd
  { a with
    clientHeap := a.clientHeap.alloc fresh ⟨fd, id, true, ∅, []⟩
    state := { a.state with clients := a.state.clients.insert id fresh } }

section

variable (w : World) (id : Bytes) (fd : Fd) (fresh : ClientPtr)

@[simp] theorem registered_clients :
    (registered w id fd fresh).state.clients = w.state.clients.insert id fresh := by
  simp only [registered, announceClient_clients]

@[simp] theorem registered_subscribers (pattern : Bytes) :
    (registered w id fd fresh).subscribers pattern = w.subscribers pattern := by
  simp only [World.subscribers, registered, announceClient_subscriptions]

@[simp] theorem registered_messageHeap :
    (registered w id fd fresh).messageHeap = w.messageHeap := by
  simp only [registered, announceClient_messageHeap]

/-- One record is new, and the others are where they were. -/
theorem registered_read (q : ClientPtr) : (registered w id fd fresh).clientHeap.read q =
    if q = fresh then some ⟨fd, id, true, ∅, []⟩ else w.clientHeap.read q := by
  simp only [registered, announceClient_clientHeap, Heap.read_alloc]

end

/-- The vector of a pattern after a SUBSCRIBE. -/
def joined (subs : List ClientPtr) (p : ClientPtr) : List ClientPtr :=
  if p ∈ subs then subs else subs ++ [p]

/-- The world with other subscription vectors and one other record. -/
def tablesWith (w : World) (table : TreeMap Bytes (List ClientPtr)) (p : ClientPtr) (c : TcpClient) :
    World :=
  { w with state := { w.state with subscriptions := table }, clientHeap := w.clientHeap.set p c }

/-- A table in which one vector is new. -/
def OneVector (w : World) (table : TreeMap Bytes (List ClientPtr)) (topic : Bytes)
    (subs : List ClientPtr) : Prop :=
  ∀ pattern, table.getD pattern [] = if pattern = topic then subs else w.subscribers pattern

/-- What `handle_client_request` can do. -/
inductive RequestOutcome (fd : Fd) (r : TcpRequest) (index : Nat) (fresh : ClientPtr) (w : World) :
    World → Prop
  | rejected {p c} : r.type = .message → w.Record r.clientId p c → c.connected = true →
      RequestOutcome fd r index fresh w
        ((w.emit (.print (ascii "Client " ++ r.clientId ++ ascii " already connected.\n"))).dropConnection
          fd index)
  | reconnected {p c heap} : r.type = .message → w.Record r.clientId p c → c.connected = false →
      releaseMessages w.messageHeap c.lostMessages = some heap →
      RequestOutcome fd r index fresh w (reconnected w r.clientId fd p c heap)
  | registered : r.type = .message → w.state.clients[r.clientId]? = none →
      RequestOutcome fd r index fresh w (registered w r.clientId fd fresh)
  | subscribed {p c table} : r.type = .subscribe → w.Record r.clientId p c →
      OneVector w table r.topic (joined (w.subscribers r.topic) p) →
      RequestOutcome fd r index fresh w
        (tablesWith w table p { c with topics := c.topics.insert r.topic r.sf })
  | unsubscribed {p c table} : r.type = .unsubscribe → w.Record r.clientId p c →
      OneVector w table r.topic ((w.subscribers r.topic).filter (· ≠ p)) →
      RequestOutcome fd r index fresh w
        (tablesWith w table p { c with topics := c.topics.erase r.topic })
  | exited {p c} : r.type = .exit → w.Record r.clientId p c →
      RequestOutcome fd r index fresh w
        (((w.emit (.print (ascii "Client " ++ r.clientId ++ ascii " disconnected.\n"))).setClient p
          { c with connected := false }).dropConnection fd index)
  | exitedUnknown : r.type = .exit → w.state.clients[r.clientId]? = none →
      RequestOutcome fd r index fresh w (w.dropConnection fd index)
  | ignored : (r.type = .subscribe ∨ r.type = .unsubscribe) ∧ w.state.clients[r.clientId]? = none ∨
      (∃ word, r.type = .other word) → RequestOutcome fd r index fresh w w

/-- Overwriting a vector, or leaving it as it is. -/
theorem oneVector_insert (w : World) (topic : Bytes) (subs : List ClientPtr) :
    OneVector w (w.state.subscriptions.insert topic subs) topic subs := by
  intro pattern
  rw [TreeMap.getD_insert, World.subscribers]
  by_cases same : pattern = topic
  · rw [if_pos same, if_pos (LawfulEqCmp.compare_eq_iff_eq.mpr same.symm)]
  · rw [if_neg same, if_neg (fun equal => same (LawfulEqCmp.compare_eq_iff_eq.mp equal).symm)]

theorem oneVector_same (w : World) (topic : Bytes) :
    OneVector w w.state.subscriptions topic (w.subscribers topic) := by
  intro pattern
  split
  next same => rw [same, World.subscribers]
  · rfl

section

variable {fd : Fd} {r : TcpRequest} {index : Nat} {fresh : ClientPtr} {w w' : World}

theorem handleConnect_outcome (type : r.type = .message)
    (handled : handleConnect fd r.clientId index fresh w = some w') :
    RequestOutcome fd r index fresh w w' := by
  simp only [handleConnect] at handled
  split at handled
  next p entry =>
    simp only [Option.bind_eq_bind, Option.bind_eq_some_iff] at handled
    obtain ⟨c, cell, handled⟩ := handled
    split at handled
    next connected =>
      cases handled
      exact .rejected type ⟨entry, cell⟩ connected
    next lost =>
      simp only [flush_eq, Option.bind_eq_some_iff, Option.map_eq_some_iff] at handled
      obtain ⟨_, ⟨heap, released, rfl⟩, handled⟩ := handled
      cases handled
      have disconnected : c.connected = false := by simpa using lost
      have released : releaseMessages w.messageHeap c.lostMessages = some heap := by
        simpa using released
      -- The record is written before and behind the flush; the last value counts.
      have outcome := @RequestOutcome.reconnected fd r index fresh w p c heap type ⟨entry, cell⟩
        disconnected released
      rw [reconnected] at outcome
      simpa only [World.setClient, Heap.set_set] using outcome
  next entry =>
    cases handled
    exact .registered type entry

theorem handleSubscribe_outcome (type : r.type = .subscribe)
    (handled : handleSubscribe r.clientId r.topic r.sf w = some w') :
    RequestOutcome fd r index fresh w w' := by
  simp only [handleSubscribe] at handled
  split at handled
  next p entry =>
    simp only [Option.bind_eq_bind, Option.bind_eq_some_iff] at handled
    obtain ⟨c, cell, handled⟩ := handled
    cases handled
    split
    next member =>
      have table : OneVector w w.state.subscriptions r.topic (joined (w.subscribers r.topic) p) := by
        rw [joined, if_pos member]
        exact oneVector_same w r.topic
      exact .subscribed type ⟨entry, cell⟩ table
    next new =>
      apply RequestOutcome.subscribed type ⟨entry, cell⟩
      rw [joined, if_neg new]
      exact oneVector_insert w r.topic _
  next entry =>
    cases handled
    exact .ignored (.inl ⟨.inl type, entry⟩)

theorem handleUnsubscribe_outcome (type : r.type = .unsubscribe)
    (handled : handleUnsubscribe r.clientId r.topic w = some w') :
    RequestOutcome fd r index fresh w w' := by
  simp only [handleUnsubscribe] at handled
  split at handled
  next p entry =>
    simp only [Option.bind_eq_bind, Option.bind_eq_some_iff] at handled
    obtain ⟨c, cell, handled⟩ := handled
    cases handled
    split
    next subs vector =>
      have current : w.subscribers r.topic = subs := by
        rw [World.subscribers, TreeMap.getD_eq_getD_getElem?, vector]
        rfl
      apply RequestOutcome.unsubscribed type ⟨entry, cell⟩
      rw [current]
      exact oneVector_insert w r.topic _
    next absent =>
      -- Without the key there is nobody to remove.
      have current : w.subscribers r.topic = [] := by
        rw [World.subscribers, TreeMap.getD_eq_getD_getElem?, absent]
        rfl
      have same := oneVector_same w r.topic
      rw [current] at same
      apply RequestOutcome.unsubscribed type ⟨entry, cell⟩
      rw [current]
      exact same
  next entry =>
    cases handled
    exact .ignored (.inl ⟨.inr type, entry⟩)

theorem handleExit_outcome (type : r.type = .exit)
    (handled : handleExit fd r.clientId index w = some w') : RequestOutcome fd r index fresh w w' := by
  simp only [handleExit] at handled
  split at handled
  next p entry =>
    simp only [Option.bind_eq_bind, Option.bind_eq_some_iff] at handled
    obtain ⟨c, cell, handled⟩ := handled
    cases handled
    exact .exited type ⟨entry, cell⟩
  next entry =>
    cases handled
    exact .exitedUnknown type entry

end

/-- Every request that is handled has one of these outcomes. -/
theorem handleClientRequest_outcome (fd : Fd) (r : TcpRequest) (index : Nat) (fresh : ClientPtr)
    (w w' : World) (handled : handleClientRequest fd r index fresh w = some w') :
    RequestOutcome fd r index fresh w w' := by
  simp only [handleClientRequest] at handled
  split at handled
  next type => exact handleConnect_outcome type handled
  next type => exact handleSubscribe_outcome type handled
  next type => exact handleUnsubscribe_outcome type handled
  next type => exact handleExit_outcome type handled
  next word type =>
    cases handled
    exact .ignored (.inr ⟨word, type⟩)

/-! ## Lost connections -/

/-- What the search for a descriptor finds. -/
inductive Search (heap : Heap TcpClient) (fd : Fd) (entries : List (Bytes × ClientPtr)) : Bytes → Prop
  | hit {front back id p c} : entries = front ++ (id, p) :: back → heap.read p = some c →
      c.fd = fd → (∀ entry ∈ front, ∀ d, heap.read entry.2 = some d → d.fd ≠ fd) →
      Search heap fd entries id
  | miss : (∀ entry ∈ entries, ∀ d, heap.read entry.2 = some d → d.fd ≠ fd) →
      Search heap fd entries []

theorem findClientByFd_search (heap : Heap TcpClient) (fd : Fd) (entries : List (Bytes × ClientPtr))
    (id : Bytes) (found : findClientByFd heap fd entries = some id) : Search heap fd entries id := by
  induction entries with
  | nil =>
    cases found
    exact .miss (by simp)
  | cons entry entries ih =>
    obtain ⟨first, p⟩ := entry
    simp only [findClientByFd, Option.bind_eq_bind, Option.bind_eq_some_iff] at found
    obtain ⟨c, cell, found⟩ := found
    split at found
    next same =>
      cases found
      exact .hit (List.nil_append _).symm cell same (by simp)
    next other =>
      have here : ∀ d, heap.read p = some d → d.fd ≠ fd := by
        intro d read
        rw [cell, Option.some.injEq] at read
        rw [← read]
        exact other
      -- No hit here, so the search of the rest decides.
      cases ih found with
      | @hit front back id q d shape read same before =>
        have shape : (first, p) :: entries = ((first, p) :: front) ++ (id, q) :: back := by
          rw [shape, List.cons_append]
        exact .hit shape read same (List.forall_mem_cons.mpr ⟨here, before⟩)
      | miss none => exact .miss (List.forall_mem_cons.mpr ⟨here, none⟩)

/-- What `handle_client_disconnect` can do. -/
inductive DisconnectOutcome (fd : Fd) (index : Nat) (w : World) : World → Prop
  | marked {id p c} : id ≠ [] → w.Record id p c → c.fd = fd →
      (∀ other q d, compare other id = .lt → w.Record other q d → d.fd ≠ fd) →
      DisconnectOutcome fd index w
        ((w.setClient p { c with connected := false }).dropConnection fd index)
  | unmarked : (∀ id p c, w.Record id p c → c.fd = fd → ∃ q d, w.Record [] q d ∧ d.fd = fd) →
      DisconnectOutcome fd index w (w.dropConnection fd index)

theorem handleClientDisconnect_outcome (fd : Fd) (index : Nat) (w w' : World)
    (handled : handleClientDisconnect fd index w = some w') : DisconnectOutcome fd index w w' := by
  simp only [handleClientDisconnect, Option.bind_eq_bind, Option.bind_eq_some_iff] at handled
  obtain ⟨id, found, handled⟩ := handled
  have search := findClientByFd_search _ _ _ _ found
  split at handled
  next named =>
    cases search with
    | @hit front back id p c shape cell same before =>
      have entry : w.state.clients[id]? = some p := lookup_of_split _ _ _ _ _ shape
      rw [entry] at handled
      simp only [cell, Option.bind_some] at handled
      cases handled
      apply DisconnectOutcome.marked named ⟨entry, cell⟩ same
      intro other q d less record
      -- The search stops at the first hit, and smaller ids come first.
      exact before (other, q) (mem_front_of_lt _ _ _ _ _ _ _ shape record.entry less) d record.cell
    | miss none => exact absurd rfl named
  next unnamed =>
    cases handled
    apply DisconnectOutcome.unmarked
    intro id' q d record equal
    have member := TreeMap.mem_toList_iff_getElem?_eq_some.mpr record.entry
    cases search with
    | @hit front back id p c shape cell same before =>
      -- A hit on the empty id is taken for a miss.
      have empty : id = [] := by simpa using unnamed
      have entry : w.state.clients[id]? = some p := lookup_of_split _ _ _ _ _ shape
      exact ⟨p, c, ⟨empty ▸ entry, cell⟩, same⟩
    | miss none => exact absurd equal (none _ member d record.cell)

end PubSub
