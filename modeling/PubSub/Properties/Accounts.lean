import PubSub.Properties.Delivery
import PubSub.Properties.Sessions
import PubSub.General.Broker

/-!
# The server as a message broker

Descriptors, pointers, counters and the subscription vectors are forgotten: what is
left of the server is a mailbox for each id. A handler call is one action of the broker
on these mailboxes; where the server's record of the sessions is right, the loss of a
connection is the leave of the client at its other end.
-/
namespace PubSub.Properties

open General Std

/-! ## The mailboxes of a server -/

/-- The relation between topics and patterns that the server goes by. -/
def Covers (topic pattern : Bytes) : Prop := topicMatchesPattern topic pattern = some true

abbrev ServerAction := Action Bytes Bytes Bytes Bytes

def accountOf (w : World) (id : Bytes) (c : TcpClient) : Account Bytes Bytes :=
  ⟨c.connected, fun pattern => c.topics[pattern]?, queued w id⟩

def mailbox (w : World) (id : Bytes) : Mailbox Bytes Bytes :=
  ⟨(w.recordOf id).map (accountOf w id), delivered id w.output⟩

/-- What a request asks for; nothing if its type is no command. -/
def wishOf (r : TcpRequest) : Option (Wish Bytes) :=
  match r.type with
  | .message => some .connect
  | .subscribe => some (.subscribe r.topic r.sf)
  | .unsubscribe => some (.unsubscribe r.topic)
  | .exit => some .leave
  | .other _ => none

/-- The broker behind a request. -/
def granted (r : TcpRequest) (b : Broker Bytes Bytes Bytes) : Broker Bytes Bytes Bytes :=
  ((wishOf r).map fun wish => Function.update b r.clientId ((b r.clientId).grant wish)).getD b

/-- What an event is to the broker. A lost connection is that of its owner, whichever record
the server takes it to be of. -/
def actionOf (log : Fd → List TcpRequest) : Event → Option ServerAction
  | .accept _ _ => none
  | .request _ r _ => (wishOf r).map (.wish r.clientId)
  | .disconnect fd => (ownerOf log fd).map fun id => .wish id .leave
  | .datagram d stale _ => some (.publish (currentTopic stale d.payload) d.body)

/-- The actions of a history. -/
def actions (past : History) : List ServerAction :=
  gather (fun seen x => actionOf (heard seen) x.event) past

/-! ## Requests and losses -/

section

variable {w w' : World} {id : Bytes} {p : ClientPtr} {c : TcpClient}

theorem mailbox_of_record (record : w.Record id p c) :
    mailbox w id = ⟨some (accountOf w id c), delivered id w.output⟩ := by
  rw [mailbox, record.recordOf, Option.map_some]

theorem mailbox_of_absent (absent : w.state.clients[id]? = none) :
    mailbox w id = ⟨none, delivered id w.output⟩ := by
  rw [mailbox, World.recordOf, absent]
  rfl

theorem promised_eq (w : World) (id : Bytes) :
    (mailbox w id).promised = delivered id w.output ++ queued w id := by
  rw [Mailbox.promised, mailbox, queued_eq]
  cases known : w.recordOf id with
  | none => rfl
  | some c =>
    simp only [Option.map_some, Option.getD_some, accountOf]
    rw [queued_eq, known]
    rfl

/-- Nothing the mailboxes are about has changed. -/
theorem mailbox_same (records : w'.recordOf = w.recordOf) (same : SameQueues w w')
    (output : ∀ id, delivered id w'.output = delivered id w.output) : mailbox w' = mailbox w := by
  funext id
  have account : accountOf w' id = accountOf w id := by
    funext c
    rw [accountOf, accountOf, queued_congr same]
  rw [mailbox, mailbox, records, account, output]

/-- One record has changed, and the others have kept their queues. -/
theorem mailbox_update {c' : TcpClient}
    (records : w'.recordOf = Function.update w.recordOf id (some c'))
    (queues : ∀ other, other ≠ id → queued w' other = queued w other)
    (output : ∀ other, other ≠ id → delivered other w'.output = delivered other w.output) :
    mailbox w' = Function.update (mailbox w) id ⟨some (accountOf w' id c'), delivered id w'.output⟩ := by
  funext other
  by_cases own : other = id
  · subst own
    rw [Function.update_self, mailbox, records, Function.update_self, Option.map_some]
  · have account : accountOf w' other = accountOf w other := by
      funext c
      rw [accountOf, accountOf, queues other own]
    rw [Function.update_of_ne own, mailbox, records, Function.update_of_ne own, account,
      output other own, mailbox]

/-- A write to one record that leaves its queue alone. -/
theorem mailbox_write {c' : TcpClient} (tables : Tables w) (record : w.Record id p c)
    (clients : w'.state.clients = w.state.clients) (cells : w'.clientHeap = w.clientHeap.set p c')
    (messages : w'.messageHeap = w.messageHeap) (queue : c'.lostMessages = c.lostMessages)
    (output : ∀ id, delivered id w'.output = delivered id w.output) :
    mailbox w' = Function.update (mailbox w) id
      ⟨some ⟨c'.connected, fun pattern => c'.topics[pattern]?, queued w id⟩, (mailbox w id).sent⟩ := by
  have same : SameQueues w w' := .ofWrite record.cell cells queue clients messages
  rw [mailbox_update (recordOf_set tables record c' clients cells) (fun other _ => queued_congr same other)
    (fun other _ => output other), accountOf, queued_congr same, output]
  rfl

theorem mailbox_reconnected (healthy : Healthy w) {fd : Fd} {heap : Heap StoredMessage}
    (record : w.Record id p c) (offline : c.connected = false)
    (released : releaseMessages w.messageHeap c.lostMessages = some heap) :
    mailbox (reconnected w id fd p c heap) =
      Function.update (mailbox w) id ((mailbox w id).grant .connect) := by
  have after : Healthy (reconnected w id fd p c heap) :=
    ⟨healthy.tables.congr (SameTables.reconnected record.cell),
      healthy.references.reconnected healthy.tables record.cell released⟩
  have records := recordOf_reconnected healthy.tables record fd heap
  have output : ∀ other, delivered other (reconnected w id fd p c heap).output =
      delivered other w.output ++ if id = other then bodies w.messageHeap c.lostMessages else [] := by
    intro other
    simp only [reconnected, delivered_append, delivered_announce, delivered_flush,
      announceClient_messageHeap]
  have emptied : queued (reconnected w id fd p c heap) id = [] := by
    rw [queued_eq, records, Function.update_self]
    rfl
  rw [mailbox_update records]
  · -- What has been waiting is sent, and nothing is left.
    rw [output, if_pos rfl, accountOf, emptied, mailbox_of_record record]
    simp [Mailbox.grant, Mailbox.connect, accountOf, offline, queued_of_record record]
  · intro other foreign
    apply queued_other after
    · rw [records, Function.update_of_ne foreign]
    · exact Heap.releaseAll_keeps StoredMessage.dropRef_content _ _ _ released
  · intro other foreign
    rw [output, if_neg (Ne.symm foreign), List.append_nil]

theorem mailbox_registered (healthy : Healthy w) {fd : Fd} {fresh : ClientPtr}
    (new : w.state.clients[id]? = none) (unused : w.clientHeap.read fresh = none) :
    mailbox (registered w id fd fresh) =
      Function.update (mailbox w) id ((mailbox w id).grant .connect) := by
  have after : Healthy (registered w id fd fresh) :=
    ⟨healthy.tables.registered _ _ _ new unused, healthy.references.registered _ _ _ new unused⟩
  have records := recordOf_registered healthy.tables id fd fresh unused
  have output : ∀ other, delivered other (registered w id fd fresh).output = delivered other w.output := by
    intro other
    simp only [registered, delivered_announce]
  have nothing : queued (registered w id fd fresh) id = [] := by
    rw [queued_eq, records, Function.update_self]
    rfl
  rw [mailbox_update records]
  · rw [output, accountOf, nothing, mailbox_of_absent new]
    simp [Mailbox.grant, Mailbox.connect]
  · intro other foreign
    apply queued_other after
    · rw [records, Function.update_of_ne foreign]
    · simp only [registered, announceClient_messageHeap]
      exact .refl _ _
  · exact fun other _ => output other

/-- A request grants its sender's wish. -/
theorem mailbox_request {fd : Fd} {r : TcpRequest} {index : Nat} {fresh : ClientPtr} (healthy : Healthy w)
    (unused : w.clientHeap.read fresh = none) (outcome : RequestOutcome fd r index fresh w w') :
    mailbox w' = granted r (mailbox w) := by
  rw [granted]
  have quiet : ∀ (silent : List Effect), (∀ id, delivered id silent = []) →
      ∀ id, delivered id (w.output ++ silent) = delivered id w.output := by
    intro silent nothing id
    rw [delivered_append, nothing, List.append_nil]
  cases outcome with
  | rejected type record connected =>
    have same : (mailbox w r.clientId).grant .connect = mailbox w r.clientId := by
      rw [mailbox_of_record record]
      simp [Mailbox.grant, Mailbox.connect, accountOf, connected]
    rw [wishOf, type, Option.map_some, Option.getD_some, same, Function.update_eq_self]
    apply mailbox_same
    · rfl
    · exact ⟨rfl, fun _ => rfl, rfl⟩
    · intro id
      rw [World.dropConnection_output, World.emit_output, List.append_assoc]
      exact quiet _ (fun _ => rfl) id
  | reconnected type record lost released =>
    rw [wishOf, type]
    exact mailbox_reconnected healthy record lost released
  | registered type new =>
    rw [wishOf, type]
    exact mailbox_registered healthy new unused
  | subscribed type record vector =>
    refine Eq.trans (mailbox_write healthy.tables record rfl rfl rfl rfl fun _ => rfl) ?_
    rw [wishOf, type, mailbox_of_record record]
    simp only [Mailbox.grant, Option.map_some, accountOf, Option.getD_some]
    congr 4
    funext pattern
    rw [lookup_insert, Function.update_apply]
  | unsubscribed type record vector =>
    refine Eq.trans (mailbox_write healthy.tables record rfl rfl rfl rfl fun _ => rfl) ?_
    rw [wishOf, type, mailbox_of_record record]
    simp only [Mailbox.grant, Option.map_some, accountOf, Option.getD_some]
    congr 4
    funext pattern
    rw [lookup_erase, Function.update_apply]
  | exited type record =>
    refine Eq.trans (mailbox_write healthy.tables record rfl rfl rfl rfl fun id => ?_) ?_
    · rw [World.dropConnection_output, World.setClient_output, World.emit_output, List.append_assoc]
      exact quiet _ (fun _ => rfl) id
    · rw [wishOf, type, mailbox_of_record record]
      rfl
  | exitedUnknown type new =>
    have same : (mailbox w r.clientId).grant .leave = mailbox w r.clientId := by
      rw [mailbox_of_absent new]
      rfl
    rw [wishOf, type, Option.map_some, Option.getD_some, same, Function.update_eq_self]
    apply mailbox_same
    · rfl
    · exact ⟨rfl, fun _ => rfl, rfl⟩
    · exact quiet _ fun _ => rfl
  | ignored reason =>
    rcases reason with ⟨type, absent⟩ | ⟨word, type⟩
    · have nobody := mailbox_of_absent absent
      rcases type with type | type <;> rw [wishOf, type, Option.map_some, Option.getD_some, nobody] <;>
        exact (Function.update_eq_self_iff.mpr nobody.symm).symm
    · rw [wishOf, type]
      rfl

theorem mailbox_marked (tables : Tables w) (record : w.Record id p c) (fd : Fd) (index : Nat) :
    mailbox ((w.setClient p { c with connected := false }).dropConnection fd index) =
      Function.update (mailbox w) id ((mailbox w id).grant .leave) := by
  have quiet : ∀ id, delivered id (w.output ++ [.close fd]) = delivered id w.output := by
    intro id
    rw [delivered_append]
    exact List.append_nil _
  refine Eq.trans (mailbox_write tables record rfl rfl rfl rfl quiet) ?_
  rw [mailbox_of_record record]
  rfl

theorem mailbox_unmarked (fd : Fd) (index : Nat) : mailbox (w.dropConnection fd index) = mailbox w := by
  apply mailbox_same
  · rfl
  · exact ⟨rfl, fun _ => rfl, rfl⟩
  · intro id
    rw [World.dropConnection_output, delivered_append]
    exact List.append_nil _

/-- Leaving means nothing to a client that is offline. -/
theorem leave_offline (record : w.Record id p c) (offline : c.connected = false) :
    (mailbox w id).grant .leave = mailbox w id := by
  simp [mailbox_of_record record, Mailbox.grant, accountOf, offline]

/-- A clean loss sets the owner of the connection offline, and nobody where it has none. -/
theorem mailbox_loss {past : History} {fd : Fd} (healthy : Healthy w) (sessions : Sessions past w)
    (known : fd ∈ w.connections) (clean : Clean w (.disconnect fd))
    (outcome : DisconnectOutcome fd (w.indexOf fd) w w') :
    mailbox w' = ((ownerOf (heard past) fd).map fun id =>
      Function.update (mailbox w) id ((mailbox w id).grant .leave)).getD (mailbox w) := by
  have owner : linked past fd = ownerOf (heard past) fd := sessions.first fd known
  rw [← owner]
  cases outcome with
  | @marked found p c named record same first =>
    have before := session_of_record record
    rw [same] at before
    rw [mailbox_marked healthy.tables record]
    cases link : linked past fd with
    | none =>
      -- A record of an earlier connection with this number: its client is away already.
      have offline : c.connected = false := by
        by_contra live
        rw [Bool.not_eq_false] at live
        rw [live] at before
        rw [((sessions.paired fd found).mp before).2] at link
        cases link
      rw [leave_offline record offline, Function.update_eq_self]
      rfl
    | some id =>
      have live := (sessions.paired fd id).mpr ⟨known, link⟩
      have own := clean.finds live before fun other less equal => by
        obtain ⟨⟨_, flag⟩, there, rfl⟩ := Option.map_eq_some_iff.mp equal
        obtain ⟨q, d, stored, here, _⟩ := record_of_session there
        exact first other q d less stored here
      rw [own]
      rfl
  | unmarked reason =>
    rw [mailbox_unmarked]
    cases link : linked past fd with
    | none => rfl
    | some id =>
      have live := (sessions.paired fd id).mpr ⟨known, link⟩
      obtain ⟨p, c, record, same, _⟩ := record_of_session live
      obtain ⟨q, d, unnamed, equal⟩ := reason id p c record same
      refine absurd ?_ (clean.finds_some live)
      rw [session_of_record unnamed, Option.map_some, equal]

end

/-! ## Datagrams -/

section

variable {w w' : World} {message : MessagePtr} {d : Datagram} {topic : Bytes}
  {recipients stored : List ClientPtr} {id : Bytes} {p : ClientPtr} {c : TcpClient}

/-- The clients that want a datagram are the recipients and those that store it. -/
theorem wants_routed (tables : Tables w) (routed : Routed w message d topic recipients stored w')
    (record : w.Record id p c) :
    (accountOf w id c).Wants Covers topic ↔ p ∈ recipients ∨ p ∈ stored := by
  constructor
  · rintro ⟨pattern, flag, set, hit, reason⟩
    have set : c.topics[pattern]? = some flag := set
    have subscribed : c.topics.contains pattern = true := by
      rw [TreeMap.contains_eq_isSome_getElem?, set]
      rfl
    have listed := (tables.mirror p c pattern record.cell).mpr subscribed
    by_cases connected : c.connected = true
    · exact .inl ((routed.reached p).mpr
        ⟨c, record.cell, connected, pattern, hit, listed, subscribed⟩)
    · rcases reason with online | flag
      · exact absurd online connected
      · subst flag
        exact .inr ((routed.kept p).mpr
          ⟨c, record.cell, by simpa using connected, pattern, hit, listed, set⟩)
  · rintro (reached | kept)
    · obtain ⟨e, cell, connected, pattern, hit, _, subscribed⟩ := (routed.reached p).mp reached
      rw [record.cell, Option.some.injEq] at cell
      subst cell
      rw [TreeMap.contains_eq_isSome_getElem?] at subscribed
      obtain ⟨flag, set⟩ := Option.isSome_iff_exists.mp subscribed
      exact ⟨pattern, flag, set, hit, .inl connected⟩
    · obtain ⟨e, cell, _, pattern, hit, _, set⟩ := (routed.kept p).mp kept
      rw [record.cell, Option.some.injEq] at cell
      subst cell
      exact ⟨pattern, true, set, hit, .inr rfl⟩

/-- Recipients are connected, clients that store the message are not. -/
theorem routed_sides (routed : Routed w message d topic recipients stored w') (record : w.Record id p c) :
    (p ∈ recipients → c.connected = true) ∧ (p ∈ stored → c.connected = false) := by
  constructor
  · intro reached
    obtain ⟨e, cell, online, _⟩ := (routed.reached p).mp reached
    rw [record.cell, Option.some.injEq] at cell
    rw [cell]
    exact online
  · intro kept
    obtain ⟨e, cell, lost, _⟩ := (routed.kept p).mp kept
    rw [record.cell, Option.some.injEq] at cell
    rw [cell]
    exact lost

/-- A datagram is a publication, whatever its length. -/
theorem mailbox_routed (healthy : Healthy w) (unused : w.messageHeap.read message = none)
    (routed : Routed w message d topic recipients stored w') (id : Bytes) :
    mailbox w' id = (mailbox w id).offer Covers topic d.body := by
  have tables := healthy.tables
  have body : d.message.buff = d.body := rfl
  cases entry : w.state.clients[id]? with
  | none =>
    have still : w'.state.clients[id]? = none := by rw [routed.state, entry]
    rw [mailbox_of_absent entry, mailbox_of_absent still, routed.output, delivered_append,
      delivered_absent tables _ entry, List.append_nil]
    rfl
  | some p =>
    obtain ⟨c, record⟩ := record_of_entry tables entry
    have sides := routed_sides routed record
    have after : w'.Record id p
        (if p ∈ stored then { c with lostMessages := c.lostMessages ++ [message] } else c) :=
      ⟨by rw [routed.state, record.entry], by rw [routed.records, record.cell, Option.map_some]⟩
    -- Only the queue of the record may be longer.
    have account : accountOf w' id
        (if p ∈ stored then { c with lostMessages := c.lostMessages ++ [message] } else c) =
        ⟨c.connected, fun pattern => c.topics[pattern]?,
          queued w id ++ if p ∈ stored then [d.body] else []⟩ := by
      rw [accountOf, queued_routed healthy unused routed record]
      split <;> rfl
    have due : (mailbox w id).due Covers topic d.body =
        if p ∈ recipients ∨ p ∈ stored then [d.body] else [] := by
      rw [Mailbox.due, mailbox_of_record record]
      simp only [Option.some.injEq, exists_eq_left', wants_routed tables routed record]
    rw [mailbox_of_record after, account, routed.output, delivered_append,
      delivered_fanOut tables _ record routed.distinctRecipients, body]
    simp only [Mailbox.offer, due]
    rw [mailbox_of_record record]
    by_cases connected : c.connected = true
    · have kept : p ∉ stored := by
        intro member
        rw [sides.2 member] at connected
        cases connected
      simp [accountOf, connected, kept]
    · have reached : p ∉ recipients := fun member => connected (sides.1 member)
      simp [accountOf, connected, reached]

end

/-! ## Whole runs -/

section

variable {udpFd tcpListenFd : Fd} {past : History} {w : World}

/-- A clean step takes the mailboxes where its action takes the broker. -/
theorem mailbox_step {w' : World} {e : Event} (healthy : Healthy w) (sessions : Sessions past w)
    (enabled : e.Enabled w) (clean : Clean w e) (outcome : Outcome w e w') :
    mailbox w' = (actionOf (heard past) e).toList.foldl (Broker.step Covers) (mailbox w) := by
  cases outcome with
  | accepted => exact mailbox_same rfl ⟨rfl, fun _ => rfl, rfl⟩ fun _ => rfl
  | @requested fd r fresh w' outcome =>
    rw [mailbox_request healthy enabled.2 outcome, granted, actionOf]
    cases wishOf r <;> rfl
  | @lost fd w' outcome =>
    rw [mailbox_loss healthy sessions enabled clean outcome, actionOf]
    cases ownerOf (heard past) fd <;> rfl
  | routed routed =>
    funext id
    exact mailbox_routed healthy enabled routed id

/-- As long as the peers behave and the record of the sessions stays right, the server is
where the actions of its history take the broker. -/
theorem mailbox_of_run (run : (serverSystem udpFd tcpListenFd).Run past w)
    (disciplined : Disciplined past) (clean : CleanRun past) :
    mailbox w = Broker.after Covers (actions past) := by
  revert disciplined clean
  apply run_induction (P := fun past w => Disciplined past → CleanRun past →
    mailbox w = Broker.after Covers (actions past)) _ _ run
  · intro _ _
    funext id
    simp [mailbox, World.recordOf, World.start, actions, gatherFrom, Broker.after, Broker.empty,
      Mailbox.empty, delivered]
  · intro past w e w' run healthy broker enabled outcome disciplined clean
    have before := ((along_snoc past _).mp disciplined).1
    obtain ⟨clean, last⟩ := (along_snoc past _).mp clean
    rw [actions, gather_snoc, Broker.after_append, ← actions, ← broker before clean]
    exact mailbox_step healthy (sessions_of_run run before clean) enabled last outcome

end

end PubSub.Properties
