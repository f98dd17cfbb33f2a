import PubSub.Properties.Subscriptions

/-!
# Delivery with store and forward

What has been written for an id and what waits in its queue, taken together, are
the datagrams its subscriptions asked for, in their order.
-/
namespace PubSub.Properties

open General Std

/-! ## What clients are owed -/

/-- The topic of a datagram that fills the topic field. -/
def topicOf (d : Datagram) : Bytes := cString (d.payload.take 50)

def ConnectedIn (w : World) (id : Bytes) : Prop := ∃ p c, w.Record id p c ∧ c.connected = true

/-- A datagram that has to reach an id: it matches a subscription, and the id is
connected or the flag of that subscription is set. -/
def Wants (past : History) (before : World) (id : Bytes) (d : Datagram) : Prop :=
  ∃ topics, roster past id = some topics ∧ ∃ pattern flag,
    topicMatchesPattern (topicOf d) pattern = some true ∧ topics pattern = some flag ∧
      (ConnectedIn before id ∨ flag = true)

open Classical in
/-- What one transition behind a history adds. -/
noncomputable def wantedAt (past : History) (id : Bytes) (x : Transition World Event) : List Bytes :=
  match x.event with
  | .datagram d _ _ => if Wants past x.before id d then [d.body] else []
  | _ => []

noncomputable def wantedFrom (id : Bytes) : History → History → List Bytes
  | _, [] => []
  | seen, x :: rest => wantedAt seen id x ++ wantedFrom id (seen ++ [x]) rest

/-- The bodies a history owes to an id. -/
noncomputable def wanted (past : History) (id : Bytes) : List Bytes := wantedFrom id [] past

theorem wantedFrom_snoc (id : Bytes) (seen rest : History) (x : Transition World Event) :
    wantedFrom id seen (rest ++ [x]) = wantedFrom id seen rest ++ wantedAt (seen ++ rest) id x := by
  induction rest generalizing seen with
  | nil => simp [wantedFrom]
  | cons y rest ih => simp [wantedFrom, ih]

theorem wanted_snoc (past : History) (id : Bytes) (x : Transition World Event) :
    wanted (past ++ [x]) id = wanted past id ++ wantedAt past id x := by
  simpa [wanted] using wantedFrom_snoc id [] past x

/-! ## What clients get -/

/-- The body an effect writes for an id. -/
def deliveredTo (id : Bytes) : Effect → Option Bytes
  | .deliver owner _ len buff => if owner = id then some (buff.take len.toNat) else none
  | _ => none

/-- The bodies written for an id. -/
def delivered (id : Bytes) (output : List Effect) : List Bytes := output.filterMap (deliveredTo id)

/-- The bodies behind a queue. -/
def bodies (heap : Heap StoredMessage) (queue : List MessagePtr) : List Bytes :=
  queue.filterMap fun msg => (heap.read msg).map StoredMessage.buff

/-- The bodies waiting for an id. -/
def queued (w : World) (id : Bytes) : List Bytes :=
  match w.state.clients[id]? with
  | some p => bodies w.messageHeap (w.queue p)
  | none => []

theorem whole_body (m : StoredMessage) : m.buff.take m.len.toNat = m.buff := by
  apply List.take_of_length_le
  have sized := m.sized
  omega

theorem delivered_append (id : Bytes) (first second : List Effect) :
    delivered id (first ++ second) = delivered id first ++ delivered id second := by
  simp [delivered]

/-- The flush writes the bodies of the queue for the client that reconnects. -/
theorem delivered_flush (id owner : Bytes) (fd : Fd) (heap : Heap StoredMessage) (queue : List MessagePtr) :
    delivered id (queue.filterMap (delivery owner fd heap)) = if owner = id then bodies heap queue else [] := by
  rw [delivered, List.filterMap_filterMap]
  split
  next own =>
    apply List.filterMap_congr
    intro msg _
    rw [delivery, Option.bind_map]
    cases heap.read msg with
    | none => rfl
    | some m => simp [deliveredTo, own, whole_body]
  next foreign =>
    apply List.filterMap_eq_nil_iff.mpr
    intro msg _
    rw [delivery, Option.bind_map]
    cases heap.read msg with
    | none => rfl
    | some m => simp [deliveredTo, foreign]

/-- A queue whose messages have kept their bodies. -/
theorem bodies_keeps (h h' : Heap StoredMessage) (queue : List MessagePtr)
    (keeps : Heap.Keeps StoredMessage.content h h') (live : ∀ msg ∈ queue, (h'.read msg).isSome) :
    bodies h' queue = bodies h queue := by
  apply List.filterMap_congr
  intro msg member
  obtain ⟨m', found'⟩ := Option.isSome_iff_exists.mp (live msg member)
  obtain ⟨m, found, same⟩ := keeps msg m' found'
  simp only [StoredMessage.content, Prod.mk.injEq] at same
  simp [found, found', same.2]

/-- The queue of an id belongs to its record. -/
theorem queued_eq (w : World) (id : Bytes) :
    queued w id = ((w.recordOf id).map fun c => bodies w.messageHeap c.lostMessages).getD [] := by
  rw [queued, World.recordOf]
  cases w.state.clients[id]? with
  | none => rfl
  | some p =>
    dsimp only [Option.bind_some]
    rw [queue_eq]
    cases w.clientHeap.read p <;> rfl

theorem queued_of_record {w : World} {id : Bytes} {p : ClientPtr} {c : TcpClient}
    (record : w.Record id p c) : queued w id = bodies w.messageHeap c.lostMessages := by
  rw [queued_eq, record.recordOf]
  rfl

theorem queued_of_absent {w : World} {id : Bytes} (absent : w.state.clients[id]? = none) :
    queued w id = [] := by
  rw [queued, absent]

theorem queued_congr {w w' : World} (same : SameQueues w w') (id : Bytes) : queued w' id = queued w id := by
  rw [queued, queued, same.clients, same.messages]
  cases w.state.clients[id]? with
  | none => rfl
  | some p =>
    dsimp only
    rw [queue_eq, queue_eq, same.records]

/-! ## Requests -/

/-- A connected client has nothing waiting. -/
def Idle (w : World) : Prop :=
  ∀ p c, w.clientHeap.read p = some c → c.connected = true → c.lostMessages = []

theorem delivered_announce (w : World) (id owner : Bytes) (fd : Fd) :
    delivered id (announceClient w owner fd).output = delivered id w.output := by
  obtain ⟨text, output⟩ := announceClient_output w owner fd
  rw [output, delivered_append]
  simp [delivered, deliveredTo]

/-- An id whose record is the same has the same bodies waiting. -/
theorem queued_other {w w' : World} (healthy : Healthy w') {id : Bytes}
    (same : w'.recordOf id = w.recordOf id)
    (keeps : Heap.Keeps StoredMessage.content w.messageHeap w'.messageHeap) :
    queued w' id = queued w id := by
  rw [queued_eq, queued_eq, same]
  cases known : w.recordOf id with
  | none => rfl
  | some c =>
    obtain ⟨p, record⟩ := record_of_recordOf (same.trans known)
    -- What is in a queue behind the step is alive, so its content is the old one.
    exact bodies_keeps _ _ _ keeps (healthy.references.live healthy.tables p c record.cell)

/-- A reconnect moves the bodies of the queue to the connection; others keep theirs. -/
theorem delivery_reconnected {w : World} (healthy : Healthy w) {owner : Bytes} {fd : Fd} {p : ClientPtr}
    {c : TcpClient} {heap : Heap StoredMessage} (record : w.Record owner p c)
    (released : releaseMessages w.messageHeap c.lostMessages = some heap) (id : Bytes) :
    delivered id (reconnected w owner fd p c heap).output ++
        queued (reconnected w owner fd p c heap) id = delivered id w.output ++ queued w id := by
  have after : Healthy (reconnected w owner fd p c heap) :=
    ⟨healthy.tables.congr (SameTables.reconnected record.cell),
      healthy.references.reconnected healthy.tables record.cell released⟩
  have records := recordOf_reconnected healthy.tables record fd heap
  have output : delivered id (reconnected w owner fd p c heap).output =
      delivered id w.output ++ if owner = id then bodies w.messageHeap c.lostMessages else [] := by
    simp only [reconnected, delivered_append, delivered_announce, delivered_flush,
      announceClient_messageHeap]
  rw [output]
  by_cases own : owner = id
  · subst own
    have emptied : queued (reconnected w owner fd p c heap) owner = [] := by
      rw [queued_eq, records, Function.update_self]
      rfl
    -- What has been written is what was waiting.
    rw [if_pos rfl, emptied, queued_of_record record, List.append_nil]
  · rw [if_neg own, List.append_nil]
    congr 1
    apply queued_other after
    · rw [records, Function.update_of_ne (Ne.symm own)]
    · exact Heap.releaseAll_keeps StoredMessage.dropRef_content _ _ _ released

/-- A new client starts with nothing. -/
theorem delivery_registered {w : World} (healthy : Healthy w) (owner : Bytes) (fd : Fd)
    (fresh : ClientPtr) (new : w.state.clients[owner]? = none)
    (unused : w.clientHeap.read fresh = none) (id : Bytes) :
    delivered id (registered w owner fd fresh).output ++ queued (registered w owner fd fresh) id =
      delivered id w.output ++ queued w id := by
  have after : Healthy (registered w owner fd fresh) :=
    ⟨healthy.tables.registered _ _ _ new unused, healthy.references.registered _ _ _ new unused⟩
  have records := recordOf_registered healthy.tables owner fd fresh unused
  have output : delivered id (registered w owner fd fresh).output = delivered id w.output := by
    simp only [registered, delivered_announce]
  rw [output]
  congr 1
  by_cases own : id = owner
  · subst own
    rw [queued_of_absent new, queued_eq, records, Function.update_self]
    rfl
  · apply queued_other after
    · rw [records, Function.update_of_ne own]
    · simp only [registered, announceClient_messageHeap]
      exact .refl _ _

/-- Nothing is written for an id, and nothing happens to the queues. -/
theorem delivery_same {w w' : World} (same : SameQueues w w') (id : Bytes)
    (output : ∃ silent, w'.output = w.output ++ silent ∧ delivered id silent = []) :
    delivered id w'.output ++ queued w' id = delivered id w.output ++ queued w id := by
  obtain ⟨silent, output, nothing⟩ := output
  rw [output, delivered_append, nothing, List.append_nil, queued_congr same]

/-- No request writes or queues a body on its own account. -/
theorem delivery_request {w w' : World} (healthy : Healthy w) {fd : Fd} {r : TcpRequest} {index : Nat}
    {fresh : ClientPtr} (unused : w.clientHeap.read fresh = none)
    (outcome : RequestOutcome fd r index fresh w w') (id : Bytes) :
    delivered id w'.output ++ queued w' id = delivered id w.output ++ queued w id := by
  cases outcome with
  | rejected type record connected =>
    apply delivery_same
    · exact ⟨rfl, fun _ => rfl, rfl⟩
    · exact ⟨_, List.append_assoc _ _ _, rfl⟩
  | reconnected type record lost released => exact delivery_reconnected healthy record released id
  | registered type new => exact delivery_registered healthy _ fd fresh new unused id
  | subscribed type record vector =>
    apply delivery_same
    · exact .ofWrite record.cell rfl rfl rfl rfl
    · exact ⟨[], (List.append_nil _).symm, rfl⟩
  | unsubscribed type record vector =>
    apply delivery_same
    · exact .ofWrite record.cell rfl rfl rfl rfl
    · exact ⟨[], (List.append_nil _).symm, rfl⟩
  | exited type record =>
    apply delivery_same
    · exact .ofWrite record.cell rfl rfl rfl rfl
    · exact ⟨_, List.append_assoc _ _ _, rfl⟩
  | exitedUnknown type new =>
    apply delivery_same
    · exact ⟨rfl, fun _ => rfl, rfl⟩
    · exact ⟨_, rfl, rfl⟩
  | ignored reason => rfl

theorem delivery_disconnect {w w' : World} {fd : Fd} {index : Nat}
    (outcome : DisconnectOutcome fd index w w') (id : Bytes) :
    delivered id w'.output ++ queued w' id = delivered id w.output ++ queued w id := by
  cases outcome with
  | marked named record same first =>
    apply delivery_same
    · exact .ofWrite record.cell rfl rfl rfl rfl
    · exact ⟨_, rfl, rfl⟩
  | unmarked reason =>
    apply delivery_same
    · exact ⟨rfl, fun _ => rfl, rfl⟩
    · exact ⟨_, rfl, rfl⟩

/-! ## Datagrams -/

/-- What stands behind the payload in the buffer is out of reach of a full topic field. -/
theorem currentTopic_full (stale : Nat → UInt8) (d : Datagram) (full : 50 ≤ d.payload.length) :
    currentTopic stale d.payload = topicOf d := by
  have field : (List.range 50).map (buffAfter stale d.payload) = d.payload.take 50 := by
    apply List.ext_getElem
    · simpa using full
    · intro i inside _
      have bound : i < 50 := by simpa using inside
      have within : i < d.payload.length := by omega
      simp [buffAfter, List.getElem?_eq_getElem within]
  rw [currentTopic, topicOf, field, cString_concat_nul]

section

variable {w w' : World} {message : MessagePtr} {d : Datagram} {topic : Bytes}
  {recipients stored : List ClientPtr}

/-- Whom a client id stands for among the recipients of a message. -/
theorem delivered_fanOut (tables : Tables w) (m : StoredMessage) {id : Bytes} {p : ClientPtr}
    {c : TcpClient} (record : w.Record id p c) (distinct : recipients.Nodup) :
    delivered id (recipients.filterMap (sendTo w m)) = if p ∈ recipients then [m.buff] else [] := by
  have here : (sendTo w m p).bind (deliveredTo id) = some m.buff := by
    simp [sendTo, record.cell, deliveredTo, record_name tables record, whole_body]
  have elsewhere : ∀ q, q ≠ p → (sendTo w m q).bind (deliveredTo id) = none := by
    intro q other
    cases cell : w.clientHeap.read q with
    | none => simp [sendTo, cell]
    | some e =>
      -- Records are stored under their own ids, so another pointer is another id.
      have foreign : e.id ≠ id := by
        intro same
        have entry := tables.only q e cell
        rw [same, record.entry, Option.some.injEq] at entry
        exact other entry.symm
      simp [sendTo, cell, deliveredTo, foreign]
  rw [delivered, List.filterMap_filterMap]
  induction recipients with
  | nil => rfl
  | cons q recipients ih =>
    rw [List.nodup_cons] at distinct
    by_cases own : q = p
    · -- Nobody is a recipient twice, so nothing follows.
      subst own
      simp [here, ih distinct.2, distinct.1]
    · simp [elsewhere q own, ih distinct.2, Ne.symm own]

theorem delivered_absent (tables : Tables w) (m : StoredMessage) {id : Bytes}
    (absent : w.state.clients[id]? = none) :
    delivered id (recipients.filterMap (sendTo w m)) = [] := by
  rw [delivered, List.filterMap_filterMap]
  apply List.filterMap_eq_nil_iff.mpr
  intro q _
  cases cell : w.clientHeap.read q with
  | none => simp [sendTo, cell]
  | some e =>
    have foreign : e.id ≠ id := by
      rintro rfl
      have entry := tables.only q e cell
      rw [absent] at entry
      cases entry
    simp [sendTo, cell, deliveredTo, foreign]

/-- A datagram adds at most its own body to a queue. -/
theorem queued_routed (healthy : Healthy w) (unused : w.messageHeap.read message = none)
    (routed : Routed w message d topic recipients stored w') {id : Bytes} {p : ClientPtr}
    {c : TcpClient} (record : w.Record id p c) :
    queued w' id = queued w id ++ if p ∈ stored then [d.body] else [] := by
  have after : w'.Record id p
      (if p ∈ stored then { c with lostMessages := c.lostMessages ++ [message] } else c) :=
    ⟨by rw [routed.state, record.entry], by rw [routed.records, record.cell, Option.map_some]⟩
  -- The address of the new message is in no queue yet.
  have older : bodies w'.messageHeap c.lostMessages = bodies w.messageHeap c.lostMessages := by
    apply List.filterMap_congr
    intro msg member
    have other : msg ≠ message := by
      rintro rfl
      exact healthy.references.fresh healthy.tables msg unused p c record.cell member
    rw [routed.read unused, if_neg fun new => other new.1]
  rw [queued_of_record after, queued_of_record record]
  split
  next kept =>
    have some_stored : stored ≠ [] := List.ne_nil_of_mem kept
    have new : bodies w'.messageHeap [message] = [d.body] := by
      simp [bodies, routed.read unused, some_stored, Datagram.message]
    have split : bodies w'.messageHeap (c.lostMessages ++ [message]) =
        bodies w'.messageHeap c.lostMessages ++ bodies w'.messageHeap [message] :=
      List.filterMap_append
    rw [split, older, new]
  next dropped => rw [older, List.append_nil]

/-- The routing agrees with the subscriptions in the request history. -/
theorem wants_iff (tables : Tables w) (past : History) (same : profile w = roster past)
    (full : topic = topicOf d) (routed : Routed w message d topic recipients stored w') {id : Bytes}
    {p : ClientPtr} {c : TcpClient} (record : w.Record id p c) :
    Wants past w id d ↔ p ∈ recipients ∨ p ∈ stored := by
  have flags : roster past id = some fun pattern => c.topics[pattern]? := by
    rw [← same, profile_of_record record]
  constructor
  · rintro ⟨topics, known, pattern, flag, hit, set, reason⟩
    rw [flags, Option.some.injEq] at known
    subst known
    have set : c.topics[pattern]? = some flag := set
    -- The loops reach the client through the vector, and then ask its map again.
    have subscribed : c.topics.contains pattern = true := by
      rw [TreeMap.contains_eq_isSome_getElem?, set]
      rfl
    have listed := (tables.mirror p c pattern record.cell).mpr subscribed
    rw [← full] at hit
    by_cases connected : c.connected = true
    · left
      exact (routed.reached p).mpr ⟨c, record.cell, connected, pattern, hit, listed, subscribed⟩
    · right
      rcases reason with ⟨q, e, other, online⟩ | flag
      · rw [← (record.unique other).2] at online
        exact absurd online connected
      · subst flag
        exact (routed.kept p).mpr ⟨c, record.cell, by simpa using connected, pattern, hit, listed, set⟩
  · rintro (reached | kept)
    · obtain ⟨e, cell, connected, pattern, hit, _, subscribed⟩ := (routed.reached p).mp reached
      rw [record.cell, Option.some.injEq] at cell
      subst cell
      rw [TreeMap.contains_eq_isSome_getElem?] at subscribed
      obtain ⟨flag, set⟩ := Option.isSome_iff_exists.mp subscribed
      exact ⟨_, flags, pattern, flag, full ▸ hit, set, .inl ⟨p, c, record, connected⟩⟩
    · obtain ⟨e, cell, _, pattern, hit, _, set⟩ := (routed.kept p).mp kept
      rw [record.cell, Option.some.injEq] at cell
      subst cell
      exact ⟨_, flags, pattern, true, full ▸ hit, set, .inr rfl⟩

open Classical in
/-- A datagram reaches exactly the ids that want it, now or later. -/
theorem delivery_routed (healthy : Healthy w) (idle : Idle w) (past : History)
    (same : profile w = roster past) (unused : w.messageHeap.read message = none)
    (full : topic = topicOf d) (routed : Routed w message d topic recipients stored w') (id : Bytes) :
    delivered id w'.output ++ queued w' id =
      delivered id w.output ++ queued w id ++ if Wants past w id d then [d.body] else [] := by
  have tables := healthy.tables
  rw [routed.output, delivered_append]
  cases entry : w.state.clients[id]? with
  | none =>
    have nothing : ¬ Wants past w id d := by
      rintro ⟨topics, known, _⟩
      rw [← same, profile_of_absent entry] at known
      cases known
    have still : w'.state.clients[id]? = none := by rw [routed.state, entry]
    rw [delivered_absent tables _ entry, queued_of_absent entry, queued_of_absent still, if_neg nothing]
  | some p =>
    obtain ⟨c, record⟩ := record_of_entry tables entry
    have wants := wants_iff tables past same full routed record
    rw [delivered_fanOut tables _ record routed.distinctRecipients, queued_routed healthy unused routed record]
    have body : d.message.buff = d.body := rfl
    rw [body]
    -- A connected client gets the body now and has an empty queue; others queue it.
    by_cases connected : c.connected = true
    · have empty : queued w id = [] := by
        rw [queued_of_record record, idle p c record.cell connected]
        rfl
      have kept : p ∉ stored := by
        intro member
        obtain ⟨e, cell, lost, _⟩ := (routed.kept p).mp member
        rw [record.cell, Option.some.injEq] at cell
        rw [← cell, connected] at lost
        cases lost
      simp [empty, kept, wants]
    · have reached : p ∉ recipients := by
        intro member
        obtain ⟨e, cell, online, _⟩ := (routed.reached p).mp member
        rw [record.cell, Option.some.injEq] at cell
        rw [← cell] at online
        exact connected online
      simp [reached, wants]

end

/-! ## Whole runs -/

/-- `Idle` looks at one record at a time. -/
theorem Idle.setClient {w : World} (idle : Idle w) (p : ClientPtr) (c : TcpClient)
    (still : c.connected = true → c.lostMessages = []) : Idle (w.setClient p c) := by
  intro q e cell connected
  rw [World.setClient_clientHeap, Heap.read_set] at cell
  split at cell
  · cases cell
    exact still connected
  · exact idle q e cell connected

/-- A client that is marked as gone may have anything waiting. -/
theorem Idle.marked {w : World} (idle : Idle w) (p : ClientPtr) (c : TcpClient) :
    Idle (w.setClient p { c with connected := false }) :=
  idle.setClient p _ fun live => absurd live Bool.false_ne_true

theorem Idle.request {w w' : World} {fd : Fd} {r : TcpRequest} {index : Nat} {fresh : ClientPtr}
    (idle : Idle w) (outcome : RequestOutcome fd r index fresh w w') : Idle w' := by
  cases outcome with
  | rejected type record connected => exact idle
  | @reconnected p c heap type record lost released =>
    have emptied : Idle (w.setClient p { c with fd := fd, connected := true, lostMessages := [] }) :=
      idle.setClient p _ fun _ => rfl
    intro q e cell
    simp only [reconnected, announceClient_clientHeap] at cell
    exact emptied q e cell
  | registered type new =>
    intro q e cell connected
    rw [registered_read] at cell
    split at cell
    · cases cell
      rfl
    · exact idle q e cell connected
  | @subscribed p c table type record vector => exact idle.setClient p _ (idle p c record.cell)
  | @unsubscribed p c table type record vector => exact idle.setClient p _ (idle p c record.cell)
  | @exited p c type record => exact idle.marked p c
  | exitedUnknown type new => exact idle
  | ignored reason => exact idle

theorem Idle.step {w w' : World} {e : Event} (idle : Idle w) (outcome : Outcome w e w') : Idle w' := by
  cases outcome with
  | accepted => exact idle
  | requested outcome => exact idle.request outcome
  | lost outcome =>
    cases outcome with
    | @marked id p c named record same first => exact idle.marked p c
    | unmarked reason => exact idle
  | @routed d stale message recipients stored w' routed =>
    intro q e cell connected
    have record := routed.records q
    rw [cell, eq_comm, Option.map_eq_some_iff] at record
    obtain ⟨c, before, rfl⟩ := record
    by_cases kept : q ∈ stored
    · -- Messages are stored for disconnected clients only.
      obtain ⟨f, same, lost, _⟩ := (routed.kept q).mp kept
      rw [before, Option.some.injEq] at same
      rw [if_pos kept] at connected
      rw [← same, connected] at lost
      cases lost
    · rw [if_neg kept] at connected ⊢
      exact idle q c before connected

/-- A datagram that fills the topic field. -/
def FullTopic : Event → Prop
  | .datagram d _ _ => 50 ≤ d.payload.length
  | _ => True

instance : DecidablePred FullTopic
  | .datagram d _ _ => inferInstanceAs (Decidable (50 ≤ d.payload.length))
  | .accept _ _ | .request _ _ _ | .disconnect _ => inferInstanceAs (Decidable True)

/-- The bodies of the datagrams in a history. -/
def arrived (past : History) : List Bytes :=
  past.filterMap fun x => match x.event with
    | .datagram d _ _ => some d.body
    | _ => none

theorem wantedAt_sublist (past : History) (id : Bytes) (x : Transition World Event) :
    (wantedAt past id x).Sublist (arrived [x]) := by
  cases event : x.event with
  | datagram d stale message =>
    simp only [wantedAt, event]
    split <;> simp [arrived, event]
  | accept | request | disconnect => simp [wantedAt, event]

/-- What is wanted has arrived, once and in this order. -/
theorem wanted_sublist (past : History) (id : Bytes) : (wanted past id).Sublist (arrived past) := by
  induction past using List.reverseRecOn with
  | nil => exact .slnil
  | append_singleton past x ih =>
    rw [wanted_snoc, arrived, List.filterMap_append]
    exact ih.append (wantedAt_sublist past id x)

section

variable {udpFd tcpListenFd : Fd} {past : History} {w : World}

theorem idle_of_run (run : (serverSystem udpFd tcpListenFd).Run past w) : Idle w := by
  apply run_induction (P := fun _ w => Idle w) _ _ run
  · intro p c cell
    cases cell
  · intro past w e w' run healthy idle enabled outcome
    exact idle.step outcome

theorem delivered_of_run (run : (serverSystem udpFd tcpListenFd).Run past w)
    (full : ∀ x ∈ past, FullTopic x.event) (id : Bytes) :
    delivered id w.output ++ queued w id = wanted past id := by
  revert full
  apply run_induction
    (P := fun past w => (∀ x ∈ past, FullTopic x.event) →
      delivered id w.output ++ queued w id = wanted past id) _ _ run
  · intro _
    rfl
  · intro past w e w' run healthy owed enabled outcome full
    have before := owed fun x member => full x (List.mem_append_left _ member)
    rw [wanted_snoc, ← before]
    -- Requests and losses move bodies between output and queue; datagrams add them.
    cases outcome with
    | accepted =>
      rw [wantedAt, List.append_nil]
      rfl
    | requested outcome =>
      rw [wantedAt, List.append_nil]
      exact delivery_request healthy enabled.2 outcome id
    | lost outcome =>
      rw [wantedAt, List.append_nil]
      exact delivery_disconnect outcome id
    | @routed d stale message recipients stored w' routed =>
      have filled : 50 ≤ d.payload.length := full _ (List.mem_append_right _ (List.mem_singleton.mpr rfl))
      rw [wantedAt]
      exact delivery_routed healthy (idle_of_run run) past (profile_of_run run) enabled
        (currentTopic_full stale d filled) routed id

end

end PubSub.Properties
