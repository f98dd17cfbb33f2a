import PubSub.Properties.Isolation

/-!
# Sessions and descriptors

Which client a connection belongs to is recorded in the descriptor and the
connected flag of the client only, and a lost connection is looked up by its
descriptor. Histories say whether that record is right.
-/
namespace PubSub.Properties

open General Std

/-! ## What the peers do -/

def hear (log : Fd → List TcpRequest) : Event → Fd → List TcpRequest
  | .accept fd _ => Function.update log fd []
  | .request fd r _ => Function.update log fd (log fd ++ [r])
  | _ => log

/-- The requests received on the latest connection of each descriptor. -/
def heard (past : History) : Fd → List TcpRequest :=
  past.foldl (fun log x => hear log x.event) fun _ => []

@[simp] theorem heard_snoc (past : History) (x : Transition World Event) :
    heard (past ++ [x]) = hear (heard past) x.event := by
  simp [heard]

/-- The client at the other end of a connection: the one that its first request has named. -/
def ownerOf (log : Fd → List TcpRequest) (fd : Fd) : Option Bytes := (log fd).head?.map TcpRequest.clientId

/-- The next request of a peer that behaves as `subscriber.cpp` does: CONNECT comes
first, the id stays the same, and nothing follows EXIT. -/
def AsSubscriber (before : List TcpRequest) (r : TcpRequest) : Prop :=
  (before = [] → r.type = .message) ∧ (∀ first ∈ before.head?, r.clientId = first.clientId) ∧
    ∀ q ∈ before, q.type ≠ .exit

instance (before : List TcpRequest) (r : TcpRequest) : Decidable (AsSubscriber before r) :=
  inferInstanceAs (Decidable ((before = [] → r.type = .message) ∧
    (∀ first ∈ before.head?, r.clientId = first.clientId) ∧ ∀ q ∈ before, q.type ≠ .exit))

def Follows (log : Fd → List TcpRequest) : Event → Prop
  | .request fd r _ => AsSubscriber (log fd) r
  | _ => True

instance (log : Fd → List TcpRequest) : DecidablePred (Follows log)
  | .request fd r _ => inferInstanceAs (Decidable (AsSubscriber (log fd) r))
  | .accept _ _ | .disconnect _ | .datagram _ _ _ => inferInstanceAs (Decidable True)

/-- All peers behave as `subscriber.cpp` does. -/
def Disciplined (past : History) : Prop := Along (fun seen x => Follows (heard seen) x.event) past

instance : DecidablePred Disciplined :=
  fun past => inferInstanceAs (Decidable (Along (fun seen x => Follows (heard seen) x.event) past))

/-- Whether the server has an id as connected. -/
def online (w : World) (id : Bytes) : Bool := (session w id).any (·.2)

def link (owners : Fd → Option Bytes) (x : Transition World Event) : Fd → Option Bytes :=
  match x.event with
  | .accept fd _ => Function.update owners fd none
  | .request fd r _ =>
    if r.type = .message ∧ online x.before r.clientId = false then
      Function.update owners fd (some r.clientId)
    else owners
  | _ => owners

/-- The id under which the CONNECT on the latest connection of a descriptor was accepted. -/
def linked (past : History) : Fd → Option Bytes := past.foldl link fun _ => none

@[simp] theorem linked_snoc (past : History) (x : Transition World Event) :
    linked (past ++ [x]) = link (linked past) x := by
  simp [linked]

/-- The connected clients and the open connections that belong to one another. -/
structure InStep (past : History) (w : World) : Prop where
  registered : ∀ id p c, w.Record id p c → c.connected = true →
    c.fd ∈ w.openFds ∧ c.fd ∈ w.connections ∧ linked past c.fd = some id
  apart : ∀ id id' p q c d, w.Record id p c → w.Record id' q d → c.connected = true →
    d.connected = true → c.fd = d.fd → id = id'
  served : ∀ fd ∈ w.connections, ∀ id, linked past fd = some id →
    ∃ p c, w.Record id p c ∧ c.connected = true ∧ c.fd = fd

/-- What must not happen: a CONNECT repeated on the connection of the session, and the
loss of a session's connection while its id is empty or the record of a smaller id
has the same descriptor. -/
def Clean (w : World) : Event → Prop
  | .request fd r _ => r.type = .message → session w r.clientId ≠ some (fd, true)
  | .disconnect fd => ∀ id ∈ w.state.clients.keys, session w id = some (fd, true) →
      id ≠ [] ∧ ∀ other ∈ w.state.clients.keys, compare other id = .lt →
        (session w other).map Prod.fst ≠ some fd
  | _ => True

instance (w : World) : DecidablePred (Clean w)
  | .request fd r _ =>
    inferInstanceAs (Decidable (r.type = .message → session w r.clientId ≠ some (fd, true)))
  | .disconnect fd => inferInstanceAs (Decidable (∀ id ∈ w.state.clients.keys,
      session w id = some (fd, true) → id ≠ [] ∧ ∀ other ∈ w.state.clients.keys,
        compare other id = .lt → (session w other).map Prod.fst ≠ some fd))
  | .accept _ _ | .datagram _ _ _ => inferInstanceAs (Decidable True)

/-! ## What a step does to the sessions -/

section

variable {w w' : World} {fd : Fd} {id : Bytes} {p : ClientPtr} {c : TcpClient}

theorem session_congr (records : w'.recordOf = w.recordOf) : session w' = session w := by
  unfold session
  rw [records]

theorem session_update {c' : TcpClient} (records : w'.recordOf = Function.update w.recordOf id (some c')) :
    session w' = Function.update (session w) id (some (c'.fd, c'.connected)) := by
  unfold session
  rw [records]
  exact map_update _ _ _ _

theorem mem_keys_of_session {flag : Bool} (known : session w id = some (fd, flag)) :
    id ∈ w.state.clients.keys := by
  obtain ⟨p, c, record, _⟩ := record_of_session known
  rw [TreeMap.mem_keys, TreeMap.mem_iff_isSome_getElem?, record.entry]
  rfl

theorem online_of_session (known : session w id = some (fd, true)) : online w id = true := by
  rw [online, known]
  rfl

/-- What a request on a connection does to the sessions. -/
inductive RequestSession (fd : Fd) (r : TcpRequest) (w w' : World) : Prop
  | refused : r.type = .message → online w r.clientId = true → session w' = session w →
      Dropped fd w w' → RequestSession fd r w w'
  | admitted : r.type = .message → online w r.clientId = false →
      session w' = Function.update (session w) r.clientId (some (fd, true)) →
      SamePolls w w' → RequestSession fd r w w'
  | left : r.type = .exit →
      session w' = Function.update (session w) r.clientId
        ((session w r.clientId).map fun s => (s.1, false)) →
      Dropped fd w w' → RequestSession fd r w w'
  | kept : r.type ≠ .message → r.type ≠ .exit → session w' = session w → SamePolls w w' →
      RequestSession fd r w w'

/-- Another topic table and another record of the same connection. -/
theorem session_tablesWith (tables : Tables w) (record : w.Record id p c)
    (table : TreeMap Bytes (List ClientPtr)) (topics : TreeMap Bytes Bool) :
    session (tablesWith w table p { c with topics := topics }) = session w := by
  rw [session_update (recordOf_tablesWith tables record table _), ← session_of_record record,
    Function.update_eq_self]

theorem session_of_absent (absent : w.state.clients[id]? = none) : session w id = none := by
  rw [session, World.recordOf, absent]
  rfl

theorem request_session {udpFd tcpListenFd : Fd} {r : TcpRequest} {fresh : ClientPtr} (tables : Tables w)
    (polled : Polled udpFd tcpListenFd w) (known : fd ∈ w.connections)
    (unused : w.clientHeap.read fresh = none)
    (outcome : RequestOutcome fd r (w.indexOf fd) fresh w w') : RequestSession fd r w w' := by
  cases outcome with
  | rejected type record connected =>
    apply RequestSession.refused type
    · rw [online, session_of_record record]
      exact connected
    · exact session_congr rfl
    · exact ⟨rfl, rfl, rfl⟩
  | @reconnected p c heap type record lost released =>
    obtain ⟨pollSet, addresses, openFds⟩ := announceClient_polls polled known r.clientId
    apply RequestSession.admitted type
    · rw [online, session_of_record record]
      exact lost
    · exact session_update (recordOf_reconnected tables record fd heap)
    · exact ⟨pollSet, addresses, openFds⟩
  | registered type new =>
    obtain ⟨pollSet, addresses, openFds⟩ := announceClient_polls polled known r.clientId
    apply RequestSession.admitted type
    · rw [online, session_of_absent new]
      rfl
    · exact session_update (recordOf_registered tables _ fd fresh unused)
    · exact ⟨pollSet, addresses, openFds⟩
  | @subscribed p c table type record vector =>
    apply RequestSession.kept
    · simp [type]
    · simp [type]
    · exact session_tablesWith tables record _ _
    · exact ⟨rfl, rfl, rfl⟩
  | @unsubscribed p c table type record vector =>
    apply RequestSession.kept
    · simp [type]
    · simp [type]
    · exact session_tablesWith tables record _ _
    · exact ⟨rfl, rfl, rfl⟩
  | @exited p c type record =>
    apply RequestSession.left type
    · rw [session_of_record record]
      exact session_update (recordOf_setClient tables record { c with connected := false })
    · exact ⟨rfl, rfl, rfl⟩
  | exitedUnknown type new =>
    apply RequestSession.left type
    · rw [session_of_absent new, Option.map_none, ← session_of_absent new, Function.update_eq_self]
      exact session_congr rfl
    · exact ⟨rfl, rfl, rfl⟩
  | ignored reason =>
    apply RequestSession.kept _ _ rfl ⟨rfl, rfl, rfl⟩
    · rcases reason with ⟨type | type, _⟩ | ⟨word, type⟩ <;> simp [type]
    · rcases reason with ⟨type | type, _⟩ | ⟨word, type⟩ <;> simp [type]

/-- What the loss of a connection does to the sessions. -/
inductive LossSession (fd : Fd) (w w' : World) : Prop
  | marked {id flag} : id ≠ [] → session w id = some (fd, flag) →
      (∀ other, compare other id = .lt → (session w other).map Prod.fst ≠ some fd) →
      session w' = Function.update (session w) id (some (fd, false)) → LossSession fd w w'
  | unmarked : (∀ id flag, session w id = some (fd, flag) → (session w []).map Prod.fst = some fd) →
      session w' = session w → LossSession fd w w'

theorem disconnect_session (tables : Tables w) (outcome : DisconnectOutcome fd (w.indexOf fd) w w') :
    LossSession fd w w' := by
  cases outcome with
  | @marked id p c named record same first =>
    subst same
    apply LossSession.marked named (session_of_record record)
    · intro other less equal
      rw [Option.map_eq_some_iff] at equal
      obtain ⟨⟨fd, flag⟩, known, rfl⟩ := equal
      obtain ⟨q, d, found, same, _⟩ := record_of_session known
      exact first other q d less found same
    · exact session_update (recordOf_setClient tables record { c with connected := false })
  | unmarked reason =>
    apply LossSession.unmarked
    · intro id flag known
      obtain ⟨p, c, record, same, _⟩ := record_of_session known
      obtain ⟨q, d, unnamed, equal⟩ := reason id p c record same
      rw [session_of_record unnamed, Option.map_some, equal]
    · exact session_congr rfl

theorem routed_session {message : MessagePtr} {d : Datagram} {topic : Bytes}
    {recipients stored : List ClientPtr} (routed : Routed w message d topic recipients stored w') :
    session w' = session w := by
  funext id
  rw [session, session, World.recordOf, World.recordOf, routed.state]
  cases w.state.clients[id]? with
  | none => rfl
  | some p =>
    rw [Option.bind_some, Option.bind_some, routed.records, Option.map_map]
    congr 1
    funext c
    dsimp only [Function.comp]
    split <;> rfl

end

/-! ## Sessions along a run -/

/-- The server's records agree with the history of the connections. -/
structure Sessions (past : History) (w : World) : Prop where
  paired : ∀ fd id, session w id = some (fd, true) ↔ fd ∈ w.connections ∧ linked past fd = some id
  first : ∀ fd ∈ w.connections, linked past fd = (heard past fd).head?.map TcpRequest.clientId

section

variable {udpFd tcpListenFd : Fd} {past : History} {w w' : World} {fd : Fd} {id : Bytes}
  {r : TcpRequest} {fresh : ClientPtr}

theorem Sessions.inStep (sessions : Sessions past w) (polled : Polled udpFd tcpListenFd w) :
    InStep past w := by
  have registered : ∀ id p c, w.Record id p c → c.connected = true →
      c.fd ∈ w.openFds ∧ c.fd ∈ w.connections ∧ linked past c.fd = some id := by
    intro id p c record connected
    have known := session_of_record record
    rw [connected, sessions.paired] at known
    exact ⟨(polled.opened _).mpr (.inr known.1), known⟩
  refine ⟨registered, ?_, ?_⟩
  · intro id id' p q c d first second connected connected' same
    have left := (registered id p c first connected).2.2
    have right := (registered id' q d second connected').2.2
    rw [same, right, Option.some.injEq] at left
    exact left.symm
  · intro fd member id owner
    obtain ⟨p, c, record, same, connected⟩ :=
      record_of_session ((sessions.paired fd id).mpr ⟨member, owner⟩)
    exact ⟨p, c, record, connected, same⟩

/-- Behind the first request, a connection belongs to the id of every further one. -/
theorem Sessions.owner (sessions : Sessions past w) (known : fd ∈ w.connections)
    (follows : AsSubscriber (heard past fd) r) (later : heard past fd ≠ []) :
    linked past fd = some r.clientId := by
  rw [sessions.first fd known]
  cases log : heard past fd with
  | nil => exact absurd log later
  | cons first rest =>
    rw [log] at follows
    rw [List.head?_cons, Option.map_some, follows.2.1 first rfl]

/-- A peer that has a session names itself. -/
theorem Sessions.names_itself (sessions : Sessions past w) (known : fd ∈ w.connections)
    (follows : AsSubscriber (heard past fd) r) (owner : linked past fd = some id) : id = r.clientId := by
  have later : heard past fd ≠ [] := by
    intro first
    have nobody := sessions.first fd known
    rw [first, owner] at nobody
    cases nobody
  rw [sessions.owner known follows later, Option.some.injEq] at owner
  exact owner.symm

/-- The id of the first request, with one more behind it. -/
theorem head_snoc {log : List TcpRequest} (follows : AsSubscriber log r) :
    (log ++ [r]).head?.map TcpRequest.clientId = some r.clientId := by
  cases log with
  | nil => rfl
  | cons first rest => exact congrArg some (follows.2.1 first rfl).symm

theorem heard_elsewhere (past : History) (fresh : ClientPtr) (other : Fd) (apart : other ≠ fd) :
    heard (past ++ [⟨w, .request fd r fresh, w'⟩]) other = heard past other := by
  rw [heard_snoc, hear, Function.update_of_ne apart]

/-- A request other than an accepted CONNECT gives nobody a connection. -/
theorem linked_unchanged (past : History) (fresh : ClientPtr)
    (refused : r.type = .message → online w r.clientId = true) :
    linked (past ++ [⟨w, .request fd r fresh, w'⟩]) = linked past := by
  rw [linked_snoc, link]
  apply if_neg
  rintro ⟨type, free⟩
  rw [refused type] at free
  cases free

/-- Giving up a connection keeps the sessions in step if all the others survive, and
none is left on the descriptor. -/
theorem Sessions.drop (sessions : Sessions past w) (polled : Polled udpFd tcpListenFd w)
    (known : fd ∈ w.connections) (dropped : Dropped fd w w') {past' : History}
    (owners : linked past' = linked past) (log : ∀ other, other ≠ fd → heard past' other = heard past other)
    (survivors : ∀ other id,
      session w' id = some (other, true) ↔ other ≠ fd ∧ session w id = some (other, true)) :
    Sessions past' w' := by
  have connections := polled.connections_drop known dropped.pollSet
  constructor
  · intro other id
    rw [survivors, owners, connections, polled.distinct.mem_erase_iff, sessions.paired, and_assoc]
  · intro other member
    rw [connections, polled.distinct.mem_erase_iff] at member
    rw [owners, log other member.1, sessions.first other member.2]

/-- An accepted CONNECT makes a session of its connection. -/
theorem Sessions.admit (sessions : Sessions past w) (known : fd ∈ w.connections)
    (follows : AsSubscriber (heard past fd) r) (type : r.type = .message)
    (free : online w r.clientId = false)
    (sessionIs : session w' = Function.update (session w) r.clientId (some (fd, true)))
    (polls : SamePolls w w') : Sessions (past ++ [⟨w, .request fd r fresh, w'⟩]) w' := by
  have owners : linked (past ++ [⟨w, .request fd r fresh, w'⟩]) =
      Function.update (linked past) fd (some r.clientId) := by
    rw [linked_snoc, link]
    exact if_pos ⟨type, free⟩
  -- The id had no session, and the connection no owner but perhaps the same id.
  have nowhere : ∀ other, session w r.clientId ≠ some (other, true) := by
    intro other before
    rw [online_of_session before] at free
    cases free
  have nobody : ∀ id, id ≠ r.clientId → linked past fd ≠ some id :=
    fun id foreign owner => foreign (sessions.names_itself known follows owner)
  constructor
  · intro other id
    rw [sessionIs, owners, polls.connections, Function.update_apply, Function.update_apply]
    by_cases named : id = r.clientId
    · subst named
      rw [if_pos rfl]
      by_cases here : other = fd
      · simp [here, known]
      · simp [here, Ne.symm here, ← sessions.paired, nowhere]
    · rw [if_neg named, sessions.paired]
      by_cases here : other = fd
      · simp [here, nobody id named, Ne.symm named]
      · rw [if_neg here]
  · intro other member
    rw [polls.connections] at member
    rw [owners, Function.update_apply]
    split
    next here => rw [here, heard_snoc, hear, Function.update_self, head_snoc follows]
    next apart => rw [heard_elsewhere past fresh other apart, sessions.first other member]

/-- A clean request keeps the sessions in step. -/
theorem Sessions.request (sessions : Sessions past w) (polled : Polled udpFd tcpListenFd w)
    (known : fd ∈ w.connections) (follows : AsSubscriber (heard past fd) r)
    (clean : Clean w (.request fd r fresh)) (outcome : RequestSession fd r w w') :
    Sessions (past ++ [⟨w, .request fd r fresh, w'⟩]) w' := by
  cases outcome with
  | refused type busy same dropped =>
    apply sessions.drop polled known dropped (linked_unchanged past fresh fun _ => busy)
      (heard_elsewhere past fresh)
    intro other id
    rw [same]
    refine ⟨fun before => ⟨?_, before⟩, fun both => both.2⟩
    -- A session on this connection would be the one that its peer names.
    rintro rfl
    have mine := sessions.names_itself known follows ((sessions.paired other id).mp before).2
    rw [mine] at before
    exact clean type before
  | admitted type free same polls => exact sessions.admit known follows type free same polls
  | left type same dropped =>
    have later : heard past fd ≠ [] := by
      intro first
      have message := follows.1 first
      rw [type] at message
      cases message
    have owner := sessions.owner known follows later
    -- EXIT ends the session of its own connection.
    have mine := (sessions.paired fd r.clientId).mpr ⟨known, owner⟩
    apply sessions.drop polled known dropped
      (linked_unchanged past fresh fun message => by rw [type] at message; cases message)
      (heard_elsewhere past fresh)
    intro other id
    rw [same, Function.update_apply, mine]
    split
    next named =>
      rw [named, mine]
      simp [eq_comm]
    next foreign =>
      refine ⟨fun before => ⟨?_, before⟩, fun both => both.2⟩
      rintro rfl
      exact foreign (sessions.names_itself known follows ((sessions.paired other id).mp before).2)
  | kept notMessage notExit same polls =>
    have owners : linked (past ++ [⟨w, .request fd r fresh, w'⟩]) = linked past :=
      linked_unchanged past fresh fun message => absurd message notMessage
    constructor
    · intro other id
      rw [same, owners, polls.connections, sessions.paired]
    · intro other member
      rw [polls.connections] at member
      rw [owners]
      by_cases here : other = fd
      · have later : heard past fd ≠ [] := fun first => notMessage (follows.1 first)
        rw [here, heard_snoc, hear, Function.update_self, head_snoc follows,
          sessions.owner known follows later]
      · rw [heard_elsewhere past fresh other here, sessions.first other member]

/-- In a clean loss, a search that finds a record has found that of the session. -/
theorem Clean.finds {found : Bytes} {flag : Bool} (clean : Clean w (.disconnect fd))
    (live : session w id = some (fd, true)) (before : session w found = some (fd, flag))
    (first : ∀ other, compare other found = .lt → (session w other).map Prod.fst ≠ some fd) : id = found := by
  by_contra missed
  -- Of two records with the descriptor, the search has taken the one in front.
  obtain ⟨_, smallest⟩ := clean id (mem_keys_of_session live) live
  rcases compare_ne id found missed with less | less
  · exact first id less (by rw [live]; rfl)
  · exact smallest found (mem_keys_of_session before) less (by rw [before]; rfl)

/-- In a clean loss, a session is found. -/
theorem Clean.finds_some (clean : Clean w (.disconnect fd)) (live : session w id = some (fd, true)) :
    (session w []).map Prod.fst ≠ some fd := by
  intro empty
  obtain ⟨named, smallest⟩ := clean id (mem_keys_of_session live) live
  have member : [] ∈ w.state.clients.keys := by
    obtain ⟨⟨_, flag⟩, known, _⟩ := Option.map_eq_some_iff.mp empty
    exact mem_keys_of_session known
  -- The empty id comes first of all, and the search takes it for a miss.
  have less : compare [] id = .lt := by
    cases id with
    | nil => exact absurd rfl named
    | cons byte rest => rfl
  exact smallest [] member less empty

/-- A clean loss keeps the sessions in step. -/
theorem Sessions.loss (sessions : Sessions past w) (polled : Polled udpFd tcpListenFd w)
    (known : fd ∈ w.connections) (clean : Clean w (.disconnect fd)) (outcome : LossSession fd w w')
    (dropped : Dropped fd w w') : Sessions (past ++ [⟨w, .disconnect fd, w'⟩]) w' := by
  apply sessions.drop polled known dropped (linked_snoc past _) (fun other _ => congrFun (heard_snoc past _) other)
  intro other id
  cases outcome with
  | @marked found flag named before first same =>
    rw [same, Function.update_apply]
    split
    next own =>
      rw [own, before]
      simp only [Option.some.injEq, Prod.mk.injEq, Bool.false_eq_true, and_false, false_iff]
      exact fun both => both.1 both.2.1.symm
    next missed =>
      refine ⟨fun live => ⟨?_, live⟩, fun both => both.2⟩
      rintro rfl
      exact missed (clean.finds live before first)
  | unmarked unnamed same =>
    rw [same]
    refine ⟨fun live => ⟨?_, live⟩, fun both => both.2⟩
    rintro rfl
    exact clean.finds_some live (unnamed id true live)

/-- A new connection has no session yet. -/
theorem Sessions.accept (sessions : Sessions past w) (polled : Polled udpFd tcpListenFd w)
    (unused : fd ∉ w.openFds) (peer : SockAddr) :
    Sessions (past ++ [⟨w, .accept fd peer, handleNewConnection fd peer w⟩])
      (handleNewConnection fd peer w) := by
  have connections := polled.connections_accept fd peer
  -- The descriptor was not open, so no session can refer to it.
  have new : fd ∉ w.connections := fun member => unused ((polled.opened fd).mpr (.inr member))
  have owners : linked (past ++ [⟨w, .accept fd peer, handleNewConnection fd peer w⟩]) =
      Function.update (linked past) fd none := linked_snoc past _
  constructor
  · intro other id
    have same : session (handleNewConnection fd peer w) = session w := session_congr rfl
    rw [same, connections, owners, sessions.paired, List.mem_append, List.mem_singleton,
      Function.update_apply]
    by_cases here : other = fd
    · simp [here, new]
    · simp [here]
  · intro other member
    rw [connections, List.mem_append, List.mem_singleton] at member
    rw [owners, heard_snoc, hear, Function.update_apply, Function.update_apply]
    rcases member with old | here
    · have apart : other ≠ fd := by
        rintro rfl
        exact new old
      rw [if_neg apart, if_neg apart, sessions.first other old]
    · rw [if_pos here, if_pos here]
      rfl

theorem Sessions.step {e : Event} (sessions : Sessions past w) (healthy : Healthy w)
    (polled : Polled udpFd tcpListenFd w) (enabled : e.Enabled w) (follows : Follows (heard past) e)
    (clean : Clean w e) (outcome : Outcome w e w') : Sessions (past ++ [⟨w, e, w'⟩]) w' := by
  cases outcome with
  | accepted => exact sessions.accept polled enabled _
  | requested outcome =>
    exact sessions.request polled enabled.1 follows clean
      (request_session healthy.tables polled enabled.1 enabled.2 outcome)
  | lost outcome =>
    exact sessions.loss polled enabled clean (disconnect_session healthy.tables outcome)
      (disconnect_polls outcome)
  | routed routed =>
    -- A datagram changes queues only.
    have same := routed_session routed
    have polls : SamePolls w w' := ⟨routed.pollSet, by rw [routed.state], routed.openFds⟩
    constructor
    · intro other id
      rw [same, polls.connections, linked_snoc, sessions.paired]
      rfl
    · intro other member
      rw [polls.connections] at member
      rw [linked_snoc, heard_snoc]
      exact sessions.first other member

/-- A step that is not clean leaves a connected client on a closed connection. -/
theorem clean_of_live {e : Event} (healthy : Healthy w) (polled : Polled udpFd tcpListenFd w)
    (enabled : e.Enabled w) (outcome : Outcome w e w')
    (live : ∀ fd id, session w' id = some (fd, true) → fd ∈ w'.connections) : Clean w e := by
  -- A connection that has been given up is nobody's any more.
  have gone : ∀ fd, fd ∈ w.connections → Dropped fd w w' → ∀ id, session w' id ≠ some (fd, true) := by
    intro fd known dropped id after
    have member := live fd id after
    rw [polled.connections_drop known dropped.pollSet, polled.distinct.mem_erase_iff] at member
    exact member.1 rfl
  cases outcome with
  | accepted => trivial
  | @requested fd r fresh w' outcome =>
    intro type before
    cases request_session healthy.tables polled enabled.1 enabled.2 outcome with
    | refused _ busy same dropped =>
      rw [← same] at before
      exact gone fd enabled.1 dropped _ before
    | admitted _ free same polls =>
      rw [online_of_session before] at free
      cases free
    | left exit same dropped =>
      rw [type] at exit
      cases exit
    | kept notMessage notExit same polls => exact notMessage type
  | @lost fd w' outcome =>
    intro id _ before
    have dropped := disconnect_polls outcome
    cases disconnect_session healthy.tables outcome with
    | @marked found flag named known first same =>
      have own : id = found := by
        by_contra missed
        refine gone fd enabled dropped id ?_
        rw [same, Function.update_of_ne missed, before]
      rw [own]
      exact ⟨named, fun other _ less => first other less⟩
    | unmarked unnamed same =>
      rw [← same] at before
      exact absurd before (gone fd enabled dropped id)
  | routed routed => trivial

theorem Sessions.start : Sessions [] (.start udpFd tcpListenFd) := by
  constructor
  · intro fd id
    simp [session, World.recordOf, World.connections, World.start]
  · intro fd member
    simp [World.connections, World.start] at member

/-- Steps of the server that keep its record of the sessions right. -/
def CleanRun (past : History) : Prop := Along (fun _ x => Clean x.before x.event) past

instance : DecidablePred CleanRun :=
  fun past => inferInstanceAs (Decidable (Along (fun _ x => Clean x.before x.event) past))

theorem sessions_of_run (run : (serverSystem udpFd tcpListenFd).Run past w)
    (disciplined : Disciplined past) (clean : CleanRun past) : Sessions past w := by
  revert disciplined clean
  apply run_induction (P := fun past w => Disciplined past → CleanRun past → Sessions past w) _ _ run
  · exact fun _ _ => Sessions.start
  · intro past w e w' run healthy sessions enabled outcome disciplined clean
    obtain ⟨before, follows⟩ := (along_snoc past _).mp disciplined
    obtain ⟨clean, last⟩ := (along_snoc past _).mp clean
    exact (sessions before clean).step healthy (polled_of_run run) enabled follows last outcome

/-- Sessions and descriptors are in step in every state of a run exactly when each of
its steps is clean. -/
theorem in_step_iff_clean (run : (serverSystem udpFd tcpListenFd).Run past w)
    (disciplined : Disciplined past) :
    Along (fun seen x => InStep seen x.before) past ∧ InStep past w ↔
      Along (fun _ x => Clean x.before x.event) past := by
  revert disciplined
  apply run_induction (P := fun past w => Disciplined past →
    (Along (fun seen x => InStep seen x.before) past ∧ InStep past w ↔ CleanRun past)) _ _ run
  · exact fun _ => iff_of_true ⟨trivial, Sessions.start.inStep Polled.start⟩ trivial
  · intro past w e w' run healthy known enabled outcome disciplined
    obtain ⟨before, follows⟩ := (along_snoc past _).mp disciplined
    have polled := polled_of_run run
    rw [along_snoc, known before, CleanRun, CleanRun, along_snoc]
    constructor
    · rintro ⟨clean, after⟩
      refine ⟨clean, clean_of_live healthy polled enabled outcome ?_⟩
      intro fd id live
      obtain ⟨p, c, record, rfl, connected⟩ := record_of_session live
      exact (after.registered id p c record connected).2.1
    · rintro ⟨clean, last⟩
      -- A clean step keeps the sessions, and they are what keeps the run in step.
      have sessions := (sessions_of_run run before clean).step healthy polled enabled follows last outcome
      exact ⟨clean, sessions.inStep (polled.step enabled outcome)⟩

end

/-- A second client on the descriptor that the first one had before its EXIT. -/
def reusedDescriptor (first second : String) : List Event :=
  [.accept 5 default, .request 5 (exampleRequest .message first "" 0) 1,
    .request 5 (exampleRequest .exit first "" 0) 9, .accept 5 default,
    .request 5 (exampleRequest .message second "" 0) 2, .disconnect 5]

/-- The record that the first client has left behind is marked instead of the second's. -/
theorem stale_descriptor : ∃ past w, (serverSystem 3 4).Run past w ∧ Disciplined past ∧
    session w (ascii "B") = some (5, true) ∧ 5 ∉ w.connections ∧ ¬ InStep past w := by
  obtain ⟨past, w, run, seen⟩ := System.exists_run (S := serverSystem 3 4) (reusedDescriptor "A" "B")
    (fun past (w : World) => Disciplined past ∧ session w (ascii "B") = some (5, true) ∧
      5 ∉ w.connections) (by decide)
  obtain ⟨disciplined, live, closed⟩ := of_decide_eq_true seen
  refine ⟨past, w, run, disciplined, live, closed, ?_⟩
  intro inStep
  obtain ⟨p, c, record, five, connected⟩ := record_of_session live
  have open_ := (inStep.registered _ p c record connected).2.1
  rw [five] at open_
  exact closed open_

theorem in_step_iff_clean_reused : ∃ past w, (serverSystem 3 4).Run past w ∧
    InStep past w ∧ past.length = 6 := by
  obtain ⟨past, w, run, seen⟩ := System.exists_run (S := serverSystem 3 4) (reusedDescriptor "B" "A")
    (fun past (_ : World) => Disciplined past ∧
      Along (fun _ x => Clean x.before x.event) past ∧ past.length = 6) (by decide)
  obtain ⟨disciplined, clean, steps⟩ := of_decide_eq_true seen
  exact ⟨past, w, run, ((in_step_iff_clean run disciplined).mpr clean).2, steps⟩

end PubSub.Properties
