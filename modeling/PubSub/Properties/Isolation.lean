import PubSub.Properties.Polls
import PubSub.Properties.Subscriptions

/-!
# What a request can touch

A request acts on the client it names, whatever connection it comes on. Nobody
else is affected, and a connected client is safe from most requests of others.
-/
namespace PubSub.Properties

open General Std

/-- The clients, their subscriptions and their queues are untouched. -/
structure SameClients (w w' : World) : Prop where
  clients : w'.state.clients = w.state.clients
  subscriptions : w'.state.subscriptions = w.state.subscriptions
  records : w'.clientHeap = w.clientHeap
  messages : w'.messageHeap = w.messageHeap

/-- A pointer that does not stand for this id. -/
def foreign (w : World) (id : Bytes) (p : ClientPtr) : Bool := w.state.clients[id]? ≠ some p

/-- Everything that belongs to other ids is untouched; messages that are shared
with them may lose references, but no content. -/
structure OthersKept (id : Bytes) (w w' : World) : Prop where
  records : ∀ other p c, other ≠ id → (w'.Record other p c ↔ w.Record other p c)
  vectors : ∀ pattern,
    (w'.subscribers pattern).filter (foreign w id) = (w.subscribers pattern).filter (foreign w id)
  messages : ∀ other p c, other ≠ id → w.Record other p c → ∀ msg ∈ c.lostMessages,
    (w'.messageHeap.read msg).map StoredMessage.content = (w.messageHeap.read msg).map StoredMessage.content

/-- What a request may do to the clients. -/
structure Contained (r : TcpRequest) (w w' : World) : Prop where
  others : OthersKept r.clientId w w'
  unknownId : w.state.clients[r.clientId]? = none → r.type ≠ .message → SameClients w w'
  unknownType : ∀ word, r.type = .other word → SameClients w w'
  duplicate : ∀ p c, r.type = .message → w.Record r.clientId p c → c.connected = true → SameClients w w'
  live : ∀ p c, w.Record r.clientId p c → c.connected = true →
    w'.messageHeap = w.messageHeap ∧ ∃ c', w'.Record r.clientId p c' ∧ c'.fd = c.fd ∧
      c'.lostMessages = c.lostMessages ∧ (r.type ≠ .exit → c'.connected = true) ∧
      (r.type ≠ .subscribe → r.type ≠ .unsubscribe → c'.topics = c.topics)

section

variable {w w' : World} {id : Bytes} {p : ClientPtr} {c : TcpClient}

theorem SameClients.record (same : SameClients w w') (other : Bytes) (q : ClientPtr) (d : TcpClient) :
    w'.Record other q d ↔ w.Record other q d := by
  constructor
  · rintro ⟨entry, cell⟩
    exact ⟨by rw [← same.clients, entry], by rw [← same.records, cell]⟩
  · rintro ⟨entry, cell⟩
    exact ⟨by rw [same.clients, entry], by rw [same.records, cell]⟩

theorem SameClients.others (same : SameClients w w') (id : Bytes) : OthersKept id w w' := by
  refine ⟨fun other q d _ => same.record other q d, ?_, ?_⟩
  · intro pattern
    rw [World.subscribers, World.subscribers, same.subscriptions]
  · intro other q d _ _ msg _
    rw [same.messages]

/-- A write to the record of one id. -/
theorem records_set (tables : Tables w) (record : w.Record id p c) (c' : TcpClient)
    (clients : w'.state.clients = w.state.clients) (cells : w'.clientHeap = w.clientHeap.set p c')
    (other : Bytes) (q : ClientPtr) (d : TcpClient) (foreign : other ≠ id) :
    w'.Record other q d ↔ w.Record other q d := by
  have apart : w.state.clients[other]? = some q → q ≠ p :=
    fun entry => ptr_ne tables record.entry entry foreign
  constructor
  · rintro ⟨entry, cell⟩
    rw [clients] at entry
    rw [cells, Heap.read_set, if_neg (apart entry)] at cell
    exact ⟨entry, cell⟩
  · rintro ⟨entry, cell⟩
    refine ⟨by rw [clients, entry], ?_⟩
    rw [cells, Heap.read_set, if_neg (apart entry), cell]

theorem not_foreign (record : w.Record id p c) : foreign w id p = false := by
  simp [foreign, record.entry]

/-- Whatever one client does in a vector, the others keep their places. -/
theorem others_tablesWith (tables : Tables w) (record : w.Record id p c) (c' : TcpClient)
    {table : TreeMap Bytes (List ClientPtr)} {topic : Bytes} {subs : List ClientPtr}
    (vector : OneVector w table topic subs)
    (places : subs.filter (foreign w id) = (w.subscribers topic).filter (foreign w id)) :
    OthersKept id w (tablesWith w table p c') := by
  have records : ∀ other q d, other ≠ id → ((tablesWith w table p c').Record other q d ↔ w.Record other q d) := by
    apply records_set tables record c' <;> rfl
  refine ⟨records, ?_, fun _ _ _ _ _ _ _ => rfl⟩
  intro pattern
  have subscribers : (tablesWith w table p c').subscribers pattern =
      if pattern = topic then subs else w.subscribers pattern := vector pattern
  rw [subscribers]
  split
  next same => rw [same, places]
  · rfl

theorem others_reconnected (healthy : Healthy w) (record : w.Record id p c) (fd : Fd)
    {heap : Heap StoredMessage} (released : releaseMessages w.messageHeap c.lostMessages = some heap) :
    OthersKept id w (reconnected w id fd p c heap) := by
  have references : References (reconnected w id fd p c heap) :=
    healthy.references.reconnected healthy.tables record.cell released
  have tables : Tables (reconnected w id fd p c heap) :=
    healthy.tables.congr (SameTables.reconnected record.cell)
  have keeps : Heap.Keeps StoredMessage.content w.messageHeap heap :=
    Heap.releaseAll_keeps StoredMessage.dropRef_content _ _ _ released
  have records : ∀ other q d, other ≠ id →
      ((reconnected w id fd p c heap).Record other q d ↔ w.Record other q d) := by
    apply records_set healthy.tables record { c with fd := fd, connected := true, lostMessages := [] }
    · simp only [reconnected, announceClient_clients]
    · simp only [reconnected, announceClient_clientHeap]
  refine ⟨records, ?_, ?_⟩
  · intro pattern
    simp only [World.subscribers, reconnected, announceClient_subscriptions]
  · intro other q d foreign before msg member
    -- The message is in a queue that is left, so it is still there.
    have after := (records other q d foreign).mpr before
    obtain ⟨m', found'⟩ := Option.isSome_iff_exists.mp (references.live tables q d after.cell msg member)
    obtain ⟨m, found, same⟩ := keeps msg m' found'
    rw [found', found, Option.map_some, Option.map_some, same]

theorem others_registered (tables : Tables w) (fd : Fd) (fresh : ClientPtr)
    (unused : w.clientHeap.read fresh = none) : OthersKept id w (registered w id fd fresh) := by
  refine ⟨?_, ?_, ?_⟩
  · intro other q d foreign
    have entries : (registered w id fd fresh).state.clients[other]? = w.state.clients[other]? := by
      rw [registered_clients, lookup_insert, if_neg foreign]
    have cells : w.state.clients[other]? = some q →
        (registered w id fd fresh).clientHeap.read q = w.clientHeap.read q := by
      intro entry
      obtain ⟨e, known⟩ := record_of_entry tables entry
      -- The new record lies where nobody else has one.
      have apart : q ≠ fresh := Heap.ne_of_read known.cell unused
      rw [registered_read, if_neg apart]
    constructor
    · rintro ⟨entry, cell⟩
      rw [entries] at entry
      exact ⟨entry, by rw [← cells entry, cell]⟩
    · rintro ⟨entry, cell⟩
      exact ⟨by rw [entries, entry], by rw [cells entry, cell]⟩
  · intro pattern
    rw [registered_subscribers]
  · intro other q d _ _ msg _
    rw [registered_messageHeap]

theorem others_request {fd : Fd} {r : TcpRequest} {index : Nat} {fresh : ClientPtr} (healthy : Healthy w)
    (unused : w.clientHeap.read fresh = none) (outcome : RequestOutcome fd r index fresh w w') :
    OthersKept r.clientId w w' := by
  have tables := healthy.tables
  cases outcome with
  | rejected type record connected =>
    apply SameClients.others
    exact ⟨rfl, rfl, rfl, rfl⟩
  | reconnected type record lost released => exact others_reconnected healthy record fd released
  | registered type new => exact others_registered tables fd fresh unused
  | @subscribed p c table type record vector =>
    apply others_tablesWith tables record _ vector
    rw [joined]
    split
    · rfl
    · simp [List.filter_append, not_foreign record]
  | @unsubscribed p c table type record vector =>
    apply others_tablesWith tables record _ vector
    rw [List.filter_filter]
    -- The pointer that is removed is the one that the filter is blind to.
    apply List.filter_congr
    intro q _
    by_cases own : q = p
    · simp [own, not_foreign record]
    · simp [own]
  | @exited p c type record =>
    refine ⟨?_, fun _ => rfl, fun _ _ _ _ _ _ _ => rfl⟩
    apply records_set tables record { c with connected := false } <;> rfl
  | exitedUnknown type new =>
    apply SameClients.others
    exact ⟨rfl, rfl, rfl, rfl⟩
  | ignored reason => exact SameClients.others ⟨rfl, rfl, rfl, rfl⟩ _

/-- Requests of a type that has no effect, or about nobody. -/
theorem sameClients_request {fd : Fd} {r : TcpRequest} {index : Nat} {fresh : ClientPtr}
    (outcome : RequestOutcome fd r index fresh w w')
    (nobody : r.type ≠ .message → ∀ p c, w.Record r.clientId p c → ∃ word, r.type = .other word)
    (busy : r.type = .message → ∃ p c, w.Record r.clientId p c ∧ c.connected = true) :
    SameClients w w' := by
  cases outcome with
  | rejected type record connected => exact ⟨rfl, rfl, rfl, rfl⟩
  | reconnected type record lost released =>
    obtain ⟨q, d, other, connected⟩ := busy type
    rw [(other.unique record).2, lost] at connected
    cases connected
  | registered type new =>
    obtain ⟨q, d, other, _⟩ := busy type
    exact (other.not_absent new).elim
  | subscribed type record vector =>
    obtain ⟨word, same⟩ := nobody (by simp [type]) _ _ record
    rw [type] at same
    cases same
  | unsubscribed type record vector =>
    obtain ⟨word, same⟩ := nobody (by simp [type]) _ _ record
    rw [type] at same
    cases same
  | exited type record =>
    obtain ⟨word, same⟩ := nobody (by simp [type]) _ _ record
    rw [type] at same
    cases same
  | exitedUnknown type new => exact ⟨rfl, rfl, rfl, rfl⟩
  | ignored reason => exact ⟨rfl, rfl, rfl, rfl⟩

/-- What a request can do to a connected client that it names. -/
theorem live_request {fd : Fd} {r : TcpRequest} {index : Nat} {fresh : ClientPtr}
    (outcome : RequestOutcome fd r index fresh w w') (record : w.Record r.clientId p c)
    (connected : c.connected = true) :
    w'.messageHeap = w.messageHeap ∧ ∃ c', w'.Record r.clientId p c' ∧ c'.fd = c.fd ∧
      c'.lostMessages = c.lostMessages ∧ (r.type ≠ .exit → c'.connected = true) ∧
      (r.type ≠ .subscribe → r.type ≠ .unsubscribe → c'.topics = c.topics) := by
  cases outcome with
  | rejected type other online =>
    exact ⟨rfl, c, ⟨record.entry, record.cell⟩, rfl, rfl, fun _ => connected, fun _ _ => rfl⟩
  | reconnected type other lost released =>
    rw [← (record.unique other).2, connected] at lost
    cases lost
  | registered type new => exact (record.not_absent new).elim
  | subscribed type other vector =>
    obtain ⟨rfl, rfl⟩ := other.unique record
    refine ⟨rfl, _, ⟨record.entry, Heap.read_set_self _ _ _⟩, rfl, rfl, fun _ => connected, ?_⟩
    exact fun different => absurd type different
  | unsubscribed type other vector =>
    obtain ⟨rfl, rfl⟩ := other.unique record
    refine ⟨rfl, _, ⟨record.entry, Heap.read_set_self _ _ _⟩, rfl, rfl, fun _ => connected, ?_⟩
    exact fun _ different => absurd type different
  | exited type other =>
    obtain ⟨rfl, rfl⟩ := other.unique record
    refine ⟨rfl, _, ⟨record.entry, Heap.read_set_self _ _ _⟩, rfl, rfl, ?_, fun _ _ => rfl⟩
    exact fun different => absurd type different
  | exitedUnknown type new => exact (record.not_absent new).elim
  | ignored reason =>
    exact ⟨rfl, c, ⟨record.entry, record.cell⟩, rfl, rfl, fun _ => connected, fun _ _ => rfl⟩

end

/-! ## Every reachable state -/

section

variable {udpFd tcpListenFd : Fd} {past : History} {w : World}

/-- A request reaches the client it names and nobody else. -/
theorem request_contained (run : (serverSystem udpFd tcpListenFd).Run past w) (fd : Fd) (r : TcpRequest)
    (fresh : ClientPtr) (unused : w.clientHeap.read fresh = none) :
    ∃ w', handleClientRequest fd r (w.indexOf fd) fresh w = some w' ∧ Contained r w w' := by
  have healthy := healthy_of_run run
  obtain ⟨w', handled⟩ := handleClientRequest_total healthy fd r (w.indexOf fd) fresh
  have outcome := handleClientRequest_outcome fd r _ fresh w w' handled
  refine ⟨w', handled, others_request healthy unused outcome, ?_, ?_, ?_, ?_⟩
  · intro new type
    apply sameClients_request outcome
    · exact fun _ p c record => (record.not_absent new).elim
    · exact fun message => absurd message type
  · intro word type
    apply sameClients_request outcome
    · exact fun _ _ _ _ => ⟨word, type⟩
    · intro message
      rw [type] at message
      cases message
  · intro p c type record connected
    apply sameClients_request outcome
    · exact fun different => absurd type different
    · exact fun _ => ⟨p, c, record, connected⟩
  · intro p c record connected
    exact live_request outcome record connected

/-- A session is intact after a request. -/
structure Intact (id : Bytes) (p : ClientPtr) (c : TcpClient) (w w' : World) : Prop where
  record : w'.Record id p c
  opened : c.fd ∈ w'.openFds
  polled : c.fd ∈ w'.connections
  addressed : (w'.state.clientAddresses[c.fd]?).isSome
  clients : SameClients w w'

/-- The rejection of a second CONNECT is harmless exactly when it comes on a
connection of its own. -/
theorem duplicate_rejected_iff (run : (serverSystem udpFd tcpListenFd).Run past w) {fd : Fd}
    {r : TcpRequest} {p : ClientPtr} {c : TcpClient} (known : fd ∈ w.connections)
    (type : r.type = .message) (record : w.Record r.clientId p c) (connected : c.connected = true)
    (polled : c.fd ∈ w.connections) (fresh : ClientPtr) :
    ∃ w', handleClientRequest fd r (w.indexOf fd) fresh w = some w' ∧
      (Intact r.clientId p c w w' ↔ fd ≠ c.fd) := by
  have polls := polled_of_run run
  obtain ⟨w', handled⟩ := handleClientRequest_total (healthy_of_run run) fd r (w.indexOf fd) fresh
  have outcome := handleClientRequest_outcome fd r _ fresh w w' handled
  have same : SameClients w w' :=
    sameClients_request outcome (fun different => absurd type different)
      fun _ => ⟨p, c, record, connected⟩
  -- The id is connected, so the CONNECT is rejected and its connection closed.
  have dropped : Dropped fd w w' := by
    cases outcome with
    | rejected => exact ⟨rfl, rfl, rfl⟩
    | reconnected message other lost released =>
      rw [← (record.unique other).2, connected] at lost
      cases lost
    | registered message new => exact (record.not_absent new).elim
    | subscribed other | unsubscribed other | exited other | exitedUnknown other =>
      rw [type] at other
      cases other
    | ignored reason =>
      rcases reason with ⟨other | other, _⟩ | ⟨word, other⟩ <;> rw [type] at other <;> cases other
  refine ⟨w', handled, ?_⟩
  constructor
  · intro intact
    have left := intact.opened
    rw [dropped.openFds, List.mem_filter, decide_eq_true_eq] at left
    exact left.2.symm
  · intro other
    have after := polls.drop known dropped
    have left : c.fd ∈ w'.connections := by
      rw [polls.connections_drop known dropped.pollSet, polls.distinct.mem_erase_iff]
      exact ⟨other.symm, polled⟩
    exact ⟨(same.record _ p c).mpr record, (after.opened c.fd).mpr (.inr left), left,
      (after.addresses c.fd).mp left, same⟩

end

/-! ## Two clients -/

/-- The descriptor and the connected flag of a client. -/
def session (w : World) (id : Bytes) : Option (Fd × Bool) :=
  (w.recordOf id).map fun c => (c.fd, c.connected)

theorem session_of_record {w : World} {id : Bytes} {p : ClientPtr} {c : TcpClient}
    (record : w.Record id p c) : session w id = some (c.fd, c.connected) := by
  rw [session, record.recordOf]
  rfl

theorem record_of_session {w : World} {id : Bytes} {fd : Fd} {connected : Bool}
    (known : session w id = some (fd, connected)) :
    ∃ p c, w.Record id p c ∧ c.fd = fd ∧ c.connected = connected := by
  simp only [session, Option.map_eq_some_iff, Prod.mk.injEq] at known
  obtain ⟨c, known, same, flag⟩ := known
  obtain ⟨p, record⟩ := record_of_recordOf known
  exact ⟨p, c, record, same, flag⟩

def twoClients : List Event :=
  [.accept 5 default, .request 5 (exampleRequest .message "A" "" 0) 1, .accept 6 default,
    .request 6 (exampleRequest .message "B" "" 0) 2]

/-- An EXIT that names another client disconnects it. -/
theorem exit_for_another : ∃ past w w', (serverSystem 3 4).Run past w ∧ 6 ∈ w.connections ∧
    session w (ascii "A") = some (5, true) ∧ session w (ascii "B") = some (6, true) ∧
    handleClientRequest 6 (exampleRequest .exit "A" "" 0) (w.indexOf 6) 9 w = some w' ∧
    session w' (ascii "A") = some (5, false) := by
  obtain ⟨past, w, run, seen⟩ := System.exists_run (S := serverSystem 3 4) twoClients
    (fun _ (w : World) => 6 ∈ w.connections ∧
      session w (ascii "A") = some (5, true) ∧ session w (ascii "B") = some (6, true) ∧
      (handleClientRequest 6 (exampleRequest .exit "A" "" 0) (w.indexOf 6) 9 w).any
        fun w' => session w' (ascii "A") = some (5, false)) (by decide)
  obtain ⟨known, first, second, lost⟩ := of_decide_eq_true seen
  obtain ⟨w', handled, marked⟩ := (Option.any_eq_true _ _).mp lost
  exact ⟨past, w, w', run, known, first, second, handled, of_decide_eq_true marked⟩

theorem request_contained_exit : ∃ past w w', (serverSystem 3 4).Run past w ∧
    handleClientRequest 6 (exampleRequest .exit "A" "" 0) (w.indexOf 6) 9 w = some w' ∧
    Contained (exampleRequest .exit "A" "" 0) w w' := by
  obtain ⟨past, w, run, seen⟩ := System.exists_run (S := serverSystem 3 4) twoClients
    (fun _ (w : World) => (w.clientHeap.read 9).isNone) (by decide)
  obtain ⟨w', handled, contained⟩ :=
    request_contained run 6 (exampleRequest .exit "A" "" 0) 9 (Option.isNone_iff_eq_none.mp seen)
  exact ⟨past, w, w', run, handled, contained⟩

/-- A CONNECT repeated on its own connection closes it. -/
theorem connect_twice : ∃ past w w', (serverSystem 3 4).Run past w ∧ 5 ∈ w.connections ∧
    session w (ascii "A") = some (5, true) ∧
    handleClientRequest 5 (exampleRequest .message "A" "" 0) (w.indexOf 5) 9 w = some w' ∧
    session w' (ascii "A") = some (5, true) ∧ 5 ∉ w'.openFds := by
  obtain ⟨past, w, run, seen⟩ := System.exists_run (S := serverSystem 3 4) twoClients
    (fun _ (w : World) => 5 ∈ w.connections ∧ session w (ascii "A") = some (5, true) ∧
      (handleClientRequest 5 (exampleRequest .message "A" "" 0) (w.indexOf 5) 9 w).any
        fun w' => session w' (ascii "A") = some (5, true) ∧ 5 ∉ w'.openFds) (by decide)
  obtain ⟨known, before, closed⟩ := of_decide_eq_true seen
  obtain ⟨w', handled, after⟩ := (Option.any_eq_true _ _).mp closed
  exact ⟨past, w, w', run, known, before, handled, of_decide_eq_true after⟩

theorem duplicate_rejected_elsewhere : ∃ past w w' p c, (serverSystem 3 4).Run past w ∧
    handleClientRequest 6 (exampleRequest .message "A" "" 0) (w.indexOf 6) 9 w = some w' ∧
    Intact (exampleRequest .message "A" "" 0).clientId p c w w' := by
  obtain ⟨past, w, run, seen⟩ := System.exists_run (S := serverSystem 3 4) twoClients
    (fun _ (w : World) => 6 ∈ w.connections ∧ 5 ∈ w.connections ∧
      session w (exampleRequest .message "A" "" 0).clientId = some (5, true)) (by decide)
  obtain ⟨known, polled, online⟩ := of_decide_eq_true seen
  obtain ⟨p, c, record, five, connected⟩ := record_of_session online
  obtain ⟨w', handled, intact⟩ :=
    duplicate_rejected_iff run known (by decide) record connected (five ▸ polled) 9
  exact ⟨past, w, w', p, c, run, handled, intact.mpr (by rw [five]; decide)⟩

end PubSub.Properties
