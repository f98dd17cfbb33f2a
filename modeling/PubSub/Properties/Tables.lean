import PubSub.Properties.FanOut

/-!
# The subscription tables

A subscription is recorded twice, in the vector of the pattern and in the map of
the client. `Tables` says that the two agree and that the pointers in them are good.
-/
namespace PubSub.Properties

open General Std

structure Tables (w : World) : Prop where
  /-- Every entry of `state.clients` leads to a record with its own id. -/
  own : ∀ id p, w.state.clients[id]? = some p → ∃ c, w.clientHeap.read p = some c ∧ c.id = id
  /-- There are no other records. -/
  only : ∀ p c, w.clientHeap.read p = some c → w.state.clients[c.id]? = some p
  mirror : ∀ p c pattern, w.clientHeap.read p = some c →
    (p ∈ w.subscribers pattern ↔ c.topics.contains pattern = true)
  once : ∀ pattern, (w.subscribers pattern).Nodup
  known : ∀ pattern, ∀ p ∈ w.subscribers pattern, (w.clientHeap.read p).isSome

theorem Tables.start (udpFd tcpListenFd : Fd) : Tables (.start udpFd tcpListenFd) := by
  have nobody : ∀ pattern, (World.start udpFd tcpListenFd).subscribers pattern = [] := by
    intro pattern
    simp [World.subscribers, World.start]
  constructor
  · intro id p entry
    simp [World.start] at entry
  · intro p c cell
    cases cell
  · intro p c pattern cell
    cases cell
  · intro pattern
    rw [nobody]
    exact List.nodup_nil
  · intro pattern p member
    rw [nobody] at member
    cases member

/-- The part of a record that the tables are about. -/
def named (c : TcpClient) : Bytes × TreeMap Bytes Bool := (c.id, c.topics)

theorem record_name {w : World} (tables : Tables w) {id : Bytes} {p : ClientPtr} {c : TcpClient}
    (record : w.Record id p c) : c.id = id := by
  obtain ⟨d, cell, name⟩ := tables.own id p record.entry
  rw [record.cell, Option.some.injEq] at cell
  rw [cell]
  exact name

theorem record_of_entry {w : World} (tables : Tables w) {id : Bytes} {p : ClientPtr}
    (entry : w.state.clients[id]? = some p) : ∃ c, w.Record id p c := by
  obtain ⟨c, cell, _⟩ := tables.own id p entry
  exact ⟨c, entry, cell⟩

/-- Different ids have different records. -/
theorem ptr_ne {w : World} (tables : Tables w) {id id' : Bytes} {p q : ClientPtr}
    (first : w.state.clients[id]? = some p) (second : w.state.clients[id']? = some q)
    (other : id' ≠ id) : q ≠ p := by
  rintro rfl
  obtain ⟨c, cell, name⟩ := tables.own id q first
  obtain ⟨d, read, name'⟩ := tables.own id' q second
  rw [cell, Option.some.injEq] at read
  rw [← name, ← name', read] at other
  exact other rfl

/-- A write to one record, as seen from the ids. -/
theorem recordOf_set {w w' : World} (tables : Tables w) {id : Bytes} {p : ClientPtr} {c : TcpClient}
    (record : w.Record id p c) (c' : TcpClient) (clients : w'.state.clients = w.state.clients)
    (cells : w'.clientHeap = w.clientHeap.set p c') :
    w'.recordOf = Function.update w.recordOf id (some c') := by
  funext other
  rw [Function.update_apply, World.recordOf, World.recordOf, clients, cells]
  split
  next same => rw [same, record.entry, Option.bind_some, Heap.read_set_self]
  next foreign =>
    cases entry : w.state.clients[other]? with
    | none => rfl
    | some q =>
      rw [Option.bind_some, Option.bind_some, Heap.read_set,
        if_neg (ptr_ne tables record.entry entry foreign)]

theorem recordOf_setClient {w : World} (tables : Tables w) {id : Bytes} {p : ClientPtr} {c : TcpClient}
    (record : w.Record id p c) (c' : TcpClient) :
    (w.setClient p c').recordOf = Function.update w.recordOf id (some c') := by
  apply recordOf_set tables record <;> rfl

theorem recordOf_reconnected {w : World} (tables : Tables w) {id : Bytes} {p : ClientPtr} {c : TcpClient}
    (record : w.Record id p c) (fd : Fd) (heap : Heap StoredMessage) :
    (reconnected w id fd p c heap).recordOf =
      Function.update w.recordOf id (some { c with fd := fd, connected := true, lostMessages := [] }) := by
  apply recordOf_set tables record
  · simp only [reconnected, announceClient_clients]
  · simp only [reconnected, announceClient_clientHeap]

theorem recordOf_tablesWith {w : World} (tables : Tables w) {id : Bytes} {p : ClientPtr} {c : TcpClient}
    (record : w.Record id p c) (table : TreeMap Bytes (List ClientPtr)) (c' : TcpClient) :
    (tablesWith w table p c').recordOf = Function.update w.recordOf id (some c') := by
  apply recordOf_set tables record <;> rfl

theorem recordOf_registered {w : World} (tables : Tables w) (id : Bytes) (fd : Fd) (fresh : ClientPtr)
    (unused : w.clientHeap.read fresh = none) :
    (registered w id fd fresh).recordOf = Function.update w.recordOf id (some ⟨fd, id, true, ∅, []⟩) := by
  funext other
  rw [Function.update_apply, World.recordOf, World.recordOf, registered_clients, lookup_insert]
  split
  · rw [Option.bind_some, registered_read, if_pos rfl]
  · cases entry : w.state.clients[other]? with
    | none => rfl
    | some q =>
      obtain ⟨c, record⟩ := record_of_entry tables entry
      rw [Option.bind_some, Option.bind_some, registered_read,
        if_neg (Heap.ne_of_read record.cell unused)]

/-- Nothing the tables are about has changed. -/
structure SameTables (w w' : World) : Prop where
  clients : w'.state.clients = w.state.clients
  vectors : w'.state.subscriptions = w.state.subscriptions
  records : ∀ p, (w'.clientHeap.read p).map named = (w.clientHeap.read p).map named

private theorem SameTables.back {w w' : World} (same : SameTables w w') (p : ClientPtr)
    (c' : TcpClient) (cell : w'.clientHeap.read p = some c') :
    ∃ c, w.clientHeap.read p = some c ∧ c.id = c'.id ∧ c.topics = c'.topics := by
  have record := same.records p
  rw [cell, Option.map_some, eq_comm, Option.map_eq_some_iff] at record
  obtain ⟨c, read, name⟩ := record
  simp only [named, Prod.mk.injEq] at name
  exact ⟨c, read, name.1, name.2⟩

theorem Tables.congr {w w' : World} (tables : Tables w) (same : SameTables w w') : Tables w' := by
  have vectors : ∀ pattern, w'.subscribers pattern = w.subscribers pattern := by
    intro pattern
    rw [World.subscribers, World.subscribers, same.vectors]
  have alive : ∀ p, (w'.clientHeap.read p).isSome = (w.clientHeap.read p).isSome := by
    intro p
    have record := congrArg Option.isSome (same.records p)
    simpa using record
  constructor
  · intro id p entry
    rw [same.clients] at entry
    obtain ⟨c, cell, name⟩ := tables.own id p entry
    obtain ⟨c', cell'⟩ := Option.isSome_iff_exists.mp ((alive p).trans (by rw [cell]; rfl))
    obtain ⟨d, read, id', _⟩ := same.back p c' cell'
    rw [cell, Option.some.injEq] at read
    exact ⟨c', cell', by rw [← id', ← read, name]⟩
  · intro p c' cell'
    obtain ⟨c, cell, name, _⟩ := same.back p c' cell'
    rw [same.clients, ← name]
    exact tables.only p c cell
  · intro p c' pattern cell'
    obtain ⟨c, cell, _, topics⟩ := same.back p c' cell'
    rw [vectors, ← topics]
    exact tables.mirror p c pattern cell
  · intro pattern
    rw [vectors]
    exact tables.once pattern
  · intro pattern p member
    rw [vectors] at member
    rw [alive]
    exact tables.known pattern p member

/-- Another value of a record under the same id and with the same topics. -/
theorem SameTables.ofWrite {w w' : World} {p : ClientPtr} {c c' : TcpClient}
    (cell : w.clientHeap.read p = some c) (cells : w'.clientHeap = w.clientHeap.set p c')
    (same : named c' = named c) (clients : w'.state.clients = w.state.clients)
    (vectors : w'.state.subscriptions = w.state.subscriptions) : SameTables w w' := by
  refine ⟨clients, vectors, ?_⟩
  intro q
  rw [cells]
  exact Heap.map_read_set named _ p q c c' cell same

/-! ## Requests -/

theorem SameTables.reconnected {w : World} {id : Bytes} {fd : Fd} {p : ClientPtr} {c : TcpClient}
    {heap : Heap StoredMessage} (cell : w.clientHeap.read p = some c) :
    SameTables w (reconnected w id fd p c heap) := by
  have cells : (PubSub.reconnected w id fd p c heap).clientHeap =
      w.clientHeap.set p { c with fd := fd, connected := true, lostMessages := [] } := by
    simp only [PubSub.reconnected, announceClient_clientHeap]
  exact .ofWrite cell cells rfl (announceClient_clients w id fd) (announceClient_subscriptions w id fd)

theorem Tables.registered {w : World} (tables : Tables w) (id : Bytes) (fd : Fd) (fresh : ClientPtr)
    (new : w.state.clients[id]? = none) (unused : w.clientHeap.read fresh = none) :
    Tables (registered w id fd fresh) := by
  constructor
  · intro id' q entry
    rw [registered_clients, lookup_insert] at entry
    rw [registered_read]
    split at entry
    next same =>
      cases entry
      exact ⟨_, if_pos rfl, same.symm⟩
    next other =>
      obtain ⟨c, cell, name⟩ := tables.own id' q entry
      refine ⟨c, ?_, name⟩
      rw [if_neg (Heap.ne_of_read cell unused), cell]
  · intro q c cell
    rw [registered_read] at cell
    rw [registered_clients, lookup_insert]
    split at cell
    next same =>
      cases cell
      rw [if_pos rfl, same]
    next other =>
      have entry := tables.only q c cell
      rw [if_neg, entry]
      intro same
      rw [same, new] at entry
      cases entry
  · intro q c pattern cell
    rw [registered_read] at cell
    rw [registered_subscribers]
    split at cell
    next same =>
      cases cell
      rw [same]
      -- Nobody can have subscribed through an address that was not in use.
      have absent : fresh ∉ w.subscribers pattern := by
        intro member
        have alive := tables.known pattern fresh member
        rw [unused] at alive
        cases alive
      simp [absent]
    next other => exact tables.mirror q c pattern cell
  · intro pattern
    rw [registered_subscribers]
    exact tables.once pattern
  · intro pattern q member
    rw [registered_subscribers] at member
    rw [registered_read]
    split
    · rfl
    · exact tables.known pattern q member

/-- A change of one vector and one map, if it keeps the two in step. -/
theorem Tables.oneVector {w : World} (tables : Tables w) {p : ClientPtr} {c : TcpClient}
    {table : TreeMap Bytes (List ClientPtr)} {topic : Bytes} {subs : List ClientPtr}
    {topics : TreeMap Bytes Bool} (cell : w.clientHeap.read p = some c)
    (vector : OneVector w table topic subs) (distinct : subs.Nodup)
    (members : ∀ q, q ≠ p → (q ∈ subs ↔ q ∈ w.subscribers topic))
    (here : p ∈ subs ↔ topics.contains topic = true)
    (elsewhere : ∀ pattern, pattern ≠ topic → topics.contains pattern = c.topics.contains pattern) :
    Tables (tablesWith w table p { c with topics := topics }) := by
  have records : ∀ q, (tablesWith w table p { c with topics := topics }).clientHeap.read q =
      if q = p then some { c with topics := topics } else w.clientHeap.read q := fun q => rfl
  have vectors : ∀ pattern, (tablesWith w table p { c with topics := topics }).subscribers pattern =
      if pattern = topic then subs else w.subscribers pattern := vector
  -- One vector and one map are new; for all others the tables are those from before.
  constructor
  · intro id q entry
    obtain ⟨d, read, name⟩ := tables.own id q entry
    rw [records]
    split
    next same =>
      rw [same, cell, Option.some.injEq] at read
      refine ⟨_, rfl, ?_⟩
      rw [← name, ← read]
    next other => exact ⟨d, read, name⟩
  · intro q d read
    rw [records] at read
    split at read
    next same =>
      cases read
      rw [same]
      exact tables.only p c cell
    next other => exact tables.only q d read
  · intro q d pattern read
    rw [records] at read
    rw [vectors]
    split at read
    next same =>
      cases read
      rw [same]
      split
      next hit => rw [hit]; exact here
      next miss => rw [elsewhere pattern miss]; exact tables.mirror p c pattern cell
    next other =>
      have before := tables.mirror q d pattern read
      split
      next hit => rw [members q other, ← hit]; exact before
      · exact before
  · intro pattern
    rw [vectors]
    split
    · exact distinct
    · exact tables.once pattern
  · intro pattern q member
    rw [vectors] at member
    rw [records]
    split
    · rfl
    next other =>
      split at member
      · exact tables.known topic q ((members q other).mp member)
      · exact tables.known pattern q member

theorem contains_insert (topics : TreeMap Bytes Bool) (topic pattern : Bytes) (flag : Bool) :
    (topics.insert topic flag).contains pattern = true ↔
      pattern = topic ∨ topics.contains pattern = true := by
  rw [TreeMap.contains_eq_isSome_getElem?, TreeMap.contains_eq_isSome_getElem?, lookup_insert]
  split
  next same => simp [same]
  next other => simp [other]

theorem contains_erase (topics : TreeMap Bytes Bool) (topic pattern : Bytes) :
    (topics.erase topic).contains pattern = true ↔
      pattern ≠ topic ∧ topics.contains pattern = true := by
  rw [TreeMap.contains_eq_isSome_getElem?, TreeMap.contains_eq_isSome_getElem?, lookup_erase]
  split
  next same => simp [same]
  next other => simp [other]

theorem Tables.request {w w' : World} {fd : Fd} {r : TcpRequest} {index : Nat} {fresh : ClientPtr}
    (tables : Tables w) (unused : w.clientHeap.read fresh = none)
    (outcome : RequestOutcome fd r index fresh w w') : Tables w' := by
  cases outcome with
  | rejected type record connected =>
    exact tables.congr ⟨rfl, rfl, fun _ => rfl⟩
  | reconnected type record lost released => exact tables.congr (SameTables.reconnected record.cell)
  | registered type new => exact tables.registered _ _ _ new unused
  | @subscribed p c table type record vector =>
    apply tables.oneVector record.cell vector
    · -- The pointer is appended only where it is not in the vector yet.
      rw [joined]
      split
      · exact tables.once _
      next new => simpa using (tables.once r.topic).concat new
    · intro q other
      rw [joined]
      split <;> simp [other]
    · have member : p ∈ joined (w.subscribers r.topic) p := by
        rw [joined]
        split
        next old => exact old
        next new => simp
      simp [member]
    · intro pattern other
      rw [Bool.eq_iff_iff, contains_insert]
      simp [other]
  | @unsubscribed p c table type record vector =>
    apply tables.oneVector record.cell vector
    · -- Every occurrence of the pointer goes, and so does the key of its map.
      exact (tables.once _).filter _
    · intro q other
      simp [other]
    · simp
    · intro pattern other
      rw [Bool.eq_iff_iff, contains_erase]
      simp [other]
  | exited type record => exact tables.congr (.ofWrite record.cell rfl rfl rfl rfl)
  | exitedUnknown type new => exact tables.congr ⟨rfl, rfl, fun _ => rfl⟩
  | ignored reason => exact tables

/-! ## The other events -/

theorem Tables.disconnect {w w' : World} {fd : Fd} {index : Nat} (tables : Tables w)
    (outcome : DisconnectOutcome fd index w w') : Tables w' := by
  cases outcome with
  | marked named record same first => exact tables.congr (.ofWrite record.cell rfl rfl rfl rfl)
  | unmarked reason => exact tables.congr ⟨rfl, rfl, fun _ => rfl⟩

theorem Routed.sameTables {w w' : World} {message : MessagePtr} {d : Datagram} {topic : Bytes}
    {recipients stored : List ClientPtr} (routed : Routed w message d topic recipients stored w') :
    SameTables w w' := by
  refine ⟨by rw [routed.state], by rw [routed.state], ?_⟩
  intro p
  rw [routed.records, Option.map_map]
  congr 1
  funext c
  dsimp only [Function.comp]
  split <;> rfl

end PubSub.Properties
