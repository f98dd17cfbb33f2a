import PubSub.Properties.Service
import PubSub.Properties.Reception

/-!
# From the publishers to the subscribers

A client may come back on another connection, so what it is owed is spread over several
processes. Where the server's record of the sessions is right, its messages go over the
connections of the client, one after the other, and nothing is lost, repeated or sent
to somebody else in between.
-/
namespace PubSub.Properties

open General Std

/-- The connection that a step makes the session of an id, if any. -/
def admitted (id : Bytes) (x : Transition Network NetworkEvent) : Option Nat :=
  match x.event, x.before.serverEvent x.event with
  | .request i _, some (.request _ r _) =>
    if r.clientId = id ∧ r.type = .message ∧ online x.before.server id = false then some i else none
  | _, _ => none

/-- The connections that have had the session of an id, oldest first. -/
def connectionsOf (past : NetworkHistory) (id : Bytes) : List Nat := past.filterMap (admitted id)

/-- The bodies written to a connection. -/
def postedTo (net : Network) (i : Nat) : List Bytes := ((net.nodes i).map Node.posted).getD []

theorem connectionsOf_snoc (past : NetworkHistory) (x : Transition Network NetworkEvent) (id : Bytes) :
    connectionsOf (past ++ [x]) id = connectionsOf past id ++ (admitted id x).toList := by
  rw [connectionsOf, List.filterMap_append]
  cases seen : admitted id x <;> simp [connectionsOf, seen]

/-! ## Sessions in a network -/

section

variable {trace : History} {v w : World} {id : Bytes} {fd : Fd} {s : Event} {more : List Effect}

/-- A session that was not there before is that of an accepted CONNECT. -/
theorem session_origin {udpFd tcpListenFd : Fd} (healthy : Healthy v) (polled : Polled udpFd tcpListenFd v)
    (enabled : s.Enabled v) (outcome : Outcome v s w) (id : Bytes) (fd : Fd)
    (live : session w id = some (fd, true)) :
    session v id = some (fd, true) ∨ ∃ r fresh, s = .request fd r fresh ∧ r.clientId = id ∧
      r.type = .message ∧ online v id = false := by
  cases outcome with
  | accepted => exact .inl live
  | @requested fd' r fresh w outcome =>
    cases request_session healthy.tables polled enabled.1 enabled.2 outcome with
    | refused type busy same dropped => exact .inl (same ▸ live)
    | admitted type free same polls =>
      rw [same, Function.update_apply] at live
      split at live
      next named =>
        cases live
        exact .inr ⟨r, fresh, rfl, named.symm, type, named ▸ free⟩
      · exact .inl live
    | left type same dropped =>
      rw [same, Function.update_apply] at live
      split at live
      · obtain ⟨old, -, ended⟩ := Option.map_eq_some_iff.mp live
        cases ended
      · exact .inl live
    | kept notMessage notExit same polls => exact .inl (same ▸ live)
  | lost outcome =>
    cases disconnect_session healthy.tables outcome with
    | marked named known first same =>
      rw [same, Function.update_apply] at live
      split at live
      · cases live
      · exact .inl live
    | unmarked unnamed same => exact .inl (same ▸ live)
  | routed routed => exact .inl (routed_session routed ▸ live)

/-- What a step writes to the descriptor of a session is what it sends to the client. -/
theorem written_session (sessions : Sessions trace w) (additions : Additions trace v w more)
    (live : session w id = some (fd, true)) :
    more.filterMap (Effect.bodyOn fd) = delivered id more := by
  apply List.filterMap_congr
  intro effect member
  cases effect with
  | deliver id' fd' len buff =>
    have there := additions.addressed id' fd' len buff member
    have owner := ((sessions.paired fd id).mp live).2
    have both : fd' = fd ↔ id' = id := by
      constructor
      · rintro rfl
        rw [((sessions.paired fd' id').mp there).2, Option.some.injEq] at owner
        exact owner
      · rintro rfl
        rw [there] at live
        cases live
        rfl
    simp only [Effect.bodyOn, deliveredTo, both]
  | sendNotice dest record => rfl
  | close dest => rfl
  | print text => rfl

/-- Nothing is written to a descriptor without a session. -/
theorem written_nobody (additions : Additions trace v w more)
    (nobody : ∀ id, session w id ≠ some (fd, true)) : more.filterMap (Effect.bodyOn fd) = [] := by
  apply List.filterMap_eq_nil_iff.mpr
  intro effect member
  cases effect with
  | deliver id' fd' len buff =>
    rw [Effect.bodyOn, if_neg]
    rintro rfl
    exact nobody id' (additions.addressed id' fd' len buff member)
  | sendNotice dest record => rfl
  | close dest => rfl
  | print text => rfl

/-- Nothing is sent to a client without a session. -/
theorem delivered_nowhere (additions : Additions trace v w more)
    (nowhere : ∀ fd, session w id ≠ some (fd, true)) : delivered id more = [] := by
  apply List.filterMap_eq_nil_iff.mpr
  intro effect member
  cases effect with
  | deliver id' fd' len buff =>
    rw [deliveredTo, if_neg]
    rintro rfl
    exact nowhere fd' (additions.addressed id' fd' len buff member)
  | sendNotice dest record => rfl
  | close dest => rfl
  | print text => rfl

end

/-! ## Connections and their owners -/

/-- What the connections of an id have in common, and where its session is. -/
structure Owned (past : NetworkHistory) (net : Network) : Prop where
  named : ∀ id, ∀ i ∈ connectionsOf past id, ∃ n, net.nodes i = some n ∧
    n.taken.head?.map TcpRequest.clientId = some id
  distinct : ∀ id, (connectionsOf past id).Nodup
  current : ∀ id fd, session net.server id = some (fd, true) → ∃ front i n,
    connectionsOf past id = front ++ [i] ∧ net.nodes i = some n ∧ n.link = .served fd
  silent : ∀ i n, net.nodes i = some n → n.taken = [] → n.posted = []
  owner : ∀ i n, net.nodes i = some n → n.posted ≠ [] → ∃ id, i ∈ connectionsOf past id
  sent : ∀ id, delivered id net.server.output = (connectionsOf past id).flatMap (postedTo net)

theorem postedTo_known {net : Network} {i : Nat} {n : Node} (known : net.nodes i = some n) :
    postedTo net i = n.posted := by
  rw [postedTo, known]
  rfl

/-- A step in which only subscribers do something. -/
theorem Owned.quiet {past : NetworkHistory} {net net' : Network} {e : NetworkEvent} (owned : Owned past net)
    (nobody : ∀ id, admitted id ⟨net, e, net'⟩ = none) (server : net'.server = net.server)
    (kept : ∀ i n, net.nodes i = some n → ∃ n', net'.nodes i = some n' ∧ n'.link = n.link ∧
      n'.taken = n.taken ∧ n'.posted = n.posted)
    (new : ∀ i n', net.nodes i = none → net'.nodes i = some n' → n'.posted = []) :
    Owned (past ++ [⟨net, e, net'⟩]) net' := by
  have same : ∀ id, connectionsOf (past ++ [⟨net, e, net'⟩]) id = connectionsOf past id := by
    intro id
    rw [connectionsOf_snoc, nobody id]
    exact List.append_nil _
  have posted : ∀ i, postedTo net' i = postedTo net i := by
    intro i
    cases known : net.nodes i with
    | none =>
      rw [postedTo, postedTo, known]
      cases known' : net'.nodes i with
      | none => rfl
      | some n' =>
        rw [Option.map_some, Option.getD_some, new i n' known known']
        rfl
    | some n =>
      obtain ⟨n', known', -, -, posted⟩ := kept i n known
      rw [postedTo_known known, postedTo_known known', posted]
  refine ⟨?_, ?_, ?_, ?_, ?_, ?_⟩
  · intro id i member
    rw [same] at member
    obtain ⟨n, known, name⟩ := owned.named id i member
    obtain ⟨n', known', -, taken, -⟩ := kept i n known
    exact ⟨n', known', by rw [taken]; exact name⟩
  · intro id
    rw [same]
    exact owned.distinct id
  · intro id fd live
    rw [server] at live
    obtain ⟨front, i, n, split, known, link⟩ := owned.current id fd live
    obtain ⟨n', known', link', -, -⟩ := kept i n known
    exact ⟨front, i, n', by rw [same, split], known', link'.trans link⟩
  · intro i n' known' nothing
    cases known : net.nodes i with
    | none => exact new i n' known known'
    | some n =>
      obtain ⟨m, there, -, taken, posted⟩ := kept i n known
      rw [known', Option.some.injEq] at there
      subst there
      rw [posted]
      exact owned.silent i n known (taken ▸ nothing)
  · intro i n' known' something
    cases known : net.nodes i with
    | none => exact absurd (new i n' known known') something
    | some n =>
      obtain ⟨m, there, -, -, posted⟩ := kept i n known
      rw [known', Option.some.injEq] at there
      subst there
      obtain ⟨id, member⟩ := owned.owner i n known (posted ▸ something)
      exact ⟨id, by rw [same]; exact member⟩
  · intro id
    rw [same, server, owned.sent]
    congr 1
    funext i
    rw [posted]

section

variable {rt : RealText} {udpFd tcpListenFd : Fd} {past : NetworkHistory} {net middle : Network}
  {e : NetworkEvent} {s : Event} {w : World} {trace : History} {more : List Effect} {id : Bytes}

theorem relay_shut (n : Node) (after : World) (effects : List Effect) (link : ∀ fd, n.link ≠ .served fd) :
    (n.relay after effects).posted = n.posted := by
  cases state : n.link with
  | backlog => simp [Node.relay, state]
  | shut => simp [Node.relay, state]
  | served fd => exact absurd state (link fd)

theorem relay_posted (n : Node) (after : World) (effects : List Effect) {fd : Fd} (link : n.link = .served fd) :
    (n.relay after effects).posted = n.posted ++ effects.filterMap (Effect.bodyOn fd) := by
  simp [Node.relay, link]

/-- The owner of a connection is the client that its first request names. -/
theorem owner_session (sessions : Sessions trace w) (midway : Midway trace w middle) {i : Nat} {n : Node}
    {fd : Fd} (known : middle.nodes i = some n) (link : n.link = .served fd)
    (name : n.taken.head?.map TcpRequest.clientId = some id) (polled : fd ∈ w.connections) :
    session w id = some (fd, true) := by
  rw [sessions.paired]
  refine ⟨polled, ?_⟩
  rw [sessions.first fd polled, midway.heard i n fd known link, name]

/-- A connection of a client gets what is sent to it, as long as it has its session. -/
theorem posted_owner (sessions : Sessions trace w) (midway : Midway trace w middle)
    (additions : Additions trace net.server w more) {i : Nat} {n : Node}
    (known : middle.nodes i = some n) (name : n.taken.head?.map TcpRequest.clientId = some id) :
    (n.relay w more).posted = n.posted ∧ (∀ fd, session w id = some (fd, true) → n.link ≠ .served fd) ∨
      (n.relay w more).posted = n.posted ++ delivered id more ∧
        ∃ fd, n.link = .served fd ∧ session w id = some (fd, true) := by
  by_cases link : ∃ fd, n.link = .served fd ∧ fd ∈ w.connections
  · obtain ⟨fd, link, polled⟩ := link
    have live := owner_session sessions midway known link name polled
    refine .inr ⟨?_, fd, link, live⟩
    rw [relay_posted n w more link, written_session sessions additions live]
  · refine .inl ⟨?_, ?_⟩
    · by_cases served : ∃ fd, n.link = .served fd
      · obtain ⟨fd, served⟩ := served
        rw [relay_posted n w more served, written_nobody additions, List.append_nil]
        exact fun other live => link ⟨fd, served, ((sessions.paired fd other).mp live).1⟩
      · exact relay_shut n w more fun fd same => served ⟨fd, same⟩
    · exact fun fd live same => link ⟨fd, same, ((sessions.paired fd id).mp live).1⟩

/-- The network in the middle of a step, when the server has heard of the request but its
effects are not yet on the connections. -/
structure OwnedMidway (connections : Bytes → List Nat) (w : World) (middle : Network) : Prop where
  named : ∀ id, ∀ i ∈ connections id, ∃ n, middle.nodes i = some n ∧
    n.taken.head?.map TcpRequest.clientId = some id
  distinct : ∀ id, (connections id).Nodup
  current : ∀ id fd, session w id = some (fd, true) → ∃ front i n,
    connections id = front ++ [i] ∧ middle.nodes i = some n ∧ n.link = .served fd
  silent : ∀ i n, middle.nodes i = some n → n.taken = [] → n.posted = []
  owner : ∀ i n, middle.nodes i = some n → n.posted ≠ [] → ∃ id, i ∈ connections id

theorem OwnedMidway.broadcast_sent {connections : Bytes → List Nat}
    (owned : OwnedMidway connections w middle) (sessions : Sessions trace w)
    (midway : Midway trace w middle) (additions : Additions trace net.server w more)
    (effects : ∀ i, (middle.broadcast w).nodes i = (middle.nodes i).map fun n => n.relay w more)
    (id : Bytes) : (connections id).flatMap (postedTo (middle.broadcast w)) =
      (connections id).flatMap (postedTo middle) ++ delivered id more := by
  have after : ∀ i n, middle.nodes i = some n →
      postedTo (middle.broadcast w) i = (n.relay w more).posted := by
    intro i n known
    rw [postedTo, effects, known]
    rfl
  by_cases online : ∃ fd, session w id = some (fd, true)
  · obtain ⟨fd, live⟩ := online
    obtain ⟨front, i, n, split, known, link⟩ := owned.current id fd live
    have distinct := owned.distinct id
    rw [split, List.nodup_append] at distinct
    -- All connections but the last have lost the session.
    have others : ∀ j ∈ front, postedTo (middle.broadcast w) j = postedTo middle j := by
      intro j member
      obtain ⟨m, known', name⟩ := owned.named id j (by rw [split]; exact List.mem_append_left _ member)
      rw [after j m known', postedTo_known known']
      rcases posted_owner sessions midway additions known' name with ⟨same, -⟩ | ⟨-, fd', link', live'⟩
      · exact same
      · rw [live, Option.some.injEq, Prod.mk.injEq] at live'
        have here := midway.apart j i m n fd known' known (live'.1 ▸ link') link
        exact absurd here (distinct.2.2 j member i (by simp))
    have last : postedTo (middle.broadcast w) i = postedTo middle i ++ delivered id more := by
      obtain ⟨m, known', name⟩ := owned.named id i (by rw [split]; simp)
      rw [known, Option.some.injEq] at known'
      subst known'
      rw [after i n known, postedTo_known known]
      rcases posted_owner sessions midway additions known name with ⟨-, elsewhere⟩ | ⟨same, -⟩
      · exact absurd link (elsewhere fd live)
      · exact same
    rw [split, List.flatMap_append, List.flatMap_append, List.flatMap_singleton, List.flatMap_singleton,
      last, List.flatMap_congr others, List.append_assoc]
  · have nowhere : ∀ fd, session w id ≠ some (fd, true) := fun fd live => online ⟨fd, live⟩
    rw [delivered_nowhere additions nowhere, List.append_nil]
    apply List.flatMap_congr
    intro j member
    obtain ⟨m, known, name⟩ := owned.named id j member
    rw [after j m known, postedTo_known known]
    rcases posted_owner sessions midway additions known name with ⟨same, -⟩ | ⟨-, fd, -, live⟩
    · exact same
    · exact absurd live (nowhere fd)

theorem OwnedMidway.congr {connections : Bytes → List Nat} (owned : Owned past net)
    (same : connections = connectionsOf past)
    (kept : ∀ i n, net.nodes i = some n → ∃ n', middle.nodes i = some n' ∧
      (∀ fd, n.link = .served fd → n'.link = .served fd) ∧ n'.taken = n.taken)
    (old : ∀ i n', middle.nodes i = some n' → ∃ n, net.nodes i = some n ∧ n'.taken = n.taken ∧
      n'.posted = n.posted)
    (origin : ∀ id fd, session w id = some (fd, true) → session net.server id = some (fd, true)) :
    OwnedMidway connections w middle := by
  subst same
  refine ⟨?_, owned.distinct, ?_, ?_, ?_⟩
  · intro id i member
    obtain ⟨n, known, name⟩ := owned.named id i member
    obtain ⟨n', known', -, taken⟩ := kept i n known
    exact ⟨n', known', by rw [taken]; exact name⟩
  · intro id fd live
    obtain ⟨front, i, n, split, known, link⟩ := owned.current id fd (origin id fd live)
    obtain ⟨n', known', served, -⟩ := kept i n known
    exact ⟨front, i, n', split, known', served fd link⟩
  · intro i n' known' nothing
    obtain ⟨n, known, taken, posted⟩ := old i n' known'
    rw [posted]
    exact owned.silent i n known (taken ▸ nothing)
  · intro i n' known' something
    obtain ⟨n, known, -, posted⟩ := old i n' known'
    exact owned.owner i n known (posted ▸ something)

/-- Only the first request of a connection can make it the session of a client. -/
theorem admitted_first (sessions : Sessions trace net.server) (linked : Linked trace net) {i : Nat} {n : Node}
    {fd : Fd} {r : TcpRequest} (known : net.nodes i = some n) (link : n.link = .served fd)
    (follows : AsSubscriber n.taken r) (free : online net.server r.clientId = false) : n.taken = [] := by
  obtain ⟨polled, log⟩ := linked.heard i n fd known link
  by_contra later
  rw [← log] at follows later
  have owner := sessions.owner polled follows later
  rw [online_of_session ((sessions.paired fd r.clientId).mpr ⟨polled, owner⟩)] at free
  cases free

theorem admitted_request {i : Nat} {fd : Fd} {r : TcpRequest} {fresh : ClientPtr}
    (prepared : Prepared net (.request i fresh) (.request fd r fresh) middle) (net' : Network) (id : Bytes) :
    admitted id ⟨net, .request i fresh, net'⟩ =
      if r.clientId = id ∧ r.type = .message ∧ online net.server id = false then some i else none := by
  have event := prepared.event
  simp only [admitted, event]

theorem Owned.request (owned : Owned past net) (sessions : Sessions trace net.server)
    (linked : Linked trace net) {i : Nat} {n : Node} {fd : Fd} {r : TcpRequest} {fresh : ClientPtr}
    (known : net.nodes i = some n) (link : n.link = .served fd) (complete : n.request = some r)
    (follows : AsSubscriber n.taken r)
    (origin : ∀ id fd', session w id = some (fd', true) → session net.server id = some (fd', true) ∨
      fd' = fd ∧ r.clientId = id ∧ r.type = .message ∧ online net.server id = false) (net' : Network) :
    OwnedMidway (connectionsOf (past ++ [⟨net, .request i fresh, net'⟩])) w (net.set i (n.received r)) ∧
      ∀ id, (connectionsOf (past ++ [⟨net, .request i fresh, net'⟩]) id).flatMap
        (postedTo (net.set i (n.received r))) = (connectionsOf past id).flatMap (postedTo net) := by
  have prepared : Prepared net (.request i fresh) (.request fd r fresh) (net.set i (n.received r)) :=
    .request known link complete
  have here : (net.set i (n.received r)).nodes i = some (n.received r) := by rw [set_nodes, if_pos rfl]
  have name : (n.received r).taken.head?.map TcpRequest.clientId = some r.clientId := head_snoc follows
  -- The connection is new to the list, or the list stays as it is.
  have grown : ∀ id, connectionsOf (past ++ [⟨net, .request i fresh, net'⟩]) id = connectionsOf past id ∨
      r.clientId = id ∧ online net.server id = false ∧ n.taken = [] ∧
        connectionsOf (past ++ [⟨net, .request i fresh, net'⟩]) id = connectionsOf past id ++ [i] := by
    intro id
    rw [connectionsOf_snoc, admitted_request prepared]
    split
    next accepted =>
      obtain ⟨rfl, -, free⟩ := accepted
      exact .inr ⟨rfl, free, admitted_first sessions linked known link follows free, rfl⟩
    · exact .inl (List.append_nil _)
  have before : ∀ id, ∀ j ∈ connectionsOf past id, ∃ m, (net.set i (n.received r)).nodes j = some m ∧
      m.taken.head?.map TcpRequest.clientId = some id := by
    intro id j member
    obtain ⟨m, there, named⟩ := owned.named id j member
    by_cases same : j = i
    · subst same
      rw [known, Option.some.injEq] at there
      subst there
      refine ⟨_, here, ?_⟩
      rw [Node.received]
      cases taken : n.taken with
      | nil =>
        rw [taken] at named
        cases named
      | cons first rest =>
        rw [taken] at named
        exact named
    · exact ⟨m, by rw [set_nodes, if_neg same, there], named⟩
  have posted : postedTo (net.set i (n.received r)) = postedTo net := by
    funext j
    rw [postedTo, postedTo, set_nodes]
    split
    next same =>
      rw [same, known]
      rfl
    · rfl
  refine ⟨⟨?_, ?_, ?_, ?_, ?_⟩, ?_⟩
  · intro id j member
    rcases grown id with same | ⟨rfl, -, -, longer⟩
    · exact before id j (same ▸ member)
    · rw [longer, List.mem_append, List.mem_singleton] at member
      rcases member with old | rfl
      · exact before _ j old
      · exact ⟨_, here, name⟩
  · intro id
    rcases grown id with same | ⟨rfl, -, first, longer⟩
    · rw [same]
      exact owned.distinct id
    · rw [longer, List.nodup_append]
      refine ⟨owned.distinct _, List.nodup_singleton i, ?_⟩
      rintro j member k rfl' rfl
      rw [List.mem_singleton] at rfl'
      subst rfl'
      -- A connection in the list has sent something before.
      obtain ⟨m, there, named⟩ := owned.named _ j member
      rw [known, Option.some.injEq] at there
      rw [← there, first] at named
      cases named
  · intro id fd' live
    rcases origin id fd' live with old | ⟨rfl, rfl, type, free⟩
    · obtain ⟨front, j, m, split, there, served⟩ := owned.current id fd' old
      have same : connectionsOf (past ++ [⟨net, .request i fresh, net'⟩]) id = connectionsOf past id := by
        rcases grown id with same | ⟨rfl, free, -, -⟩
        · exact same
        · rw [online_of_session old] at free
          cases free
      by_cases own : j = i
      · subst own
        rw [known, Option.some.injEq] at there
        subst there
        exact ⟨front, j, _, by rw [same, split], here, served⟩
      · exact ⟨front, j, m, by rw [same, split], by rw [set_nodes, if_neg own, there], served⟩
    · refine ⟨connectionsOf past r.clientId, i, _, ?_, here, link⟩
      rw [connectionsOf_snoc, admitted_request prepared, if_pos ⟨rfl, type, free⟩]
      rfl
  · intro j m there nothing
    rw [set_nodes] at there
    split at there
    · cases there
      simp [Node.received] at nothing
    · exact owned.silent j m there nothing
  · intro j m there something
    have old : ∃ id, j ∈ connectionsOf past id := by
      rw [set_nodes] at there
      split at there
      next here =>
        cases there
        exact owned.owner j n (here ▸ known) something
      · exact owned.owner j m there something
    obtain ⟨id, member⟩ := old
    refine ⟨id, ?_⟩
    rw [connectionsOf_snoc]
    exact List.mem_append_left _ member
  · intro id
    rw [posted]
    rcases grown id with same | ⟨rfl, -, first, longer⟩
    · rw [same]
    · rw [longer, List.flatMap_append, List.flatMap_singleton, postedTo_known known,
        owned.silent i n known first, List.append_nil]

/-- The server gets to know of no new session unless it reads a CONNECT. -/
theorem Owned.prepared (owned : Owned past net) (sessions : Sessions trace net.server)
    (linked : Linked trace net) (healthy : Healthy net.server) (polled : Polled udpFd tcpListenFd net.server)
    (upstream : ∀ i n, net.nodes i = some n → Upstream n) (prepared : Prepared net e s middle)
    (enabled : s.Enabled net.server) (outcome : Outcome net.server s w) (net' : Network) :
    OwnedMidway (connectionsOf (past ++ [⟨net, e, net'⟩])) w middle ∧
      ∀ id, (connectionsOf (past ++ [⟨net, e, net'⟩]) id).flatMap (postedTo middle) =
        (connectionsOf past id).flatMap (postedTo net) := by
  have origin := session_origin healthy polled enabled outcome
  -- Without a request the lists are as before.
  have same : (∀ id, admitted id ⟨net, e, net'⟩ = none) →
      connectionsOf (past ++ [⟨net, e, net'⟩]) = connectionsOf past := by
    intro nobody
    funext id
    rw [connectionsOf_snoc, nobody id]
    exact List.append_nil _
  have old : (∀ fd r fresh, s ≠ .request fd r fresh) → ∀ id fd, session w id = some (fd, true) →
      session net.server id = some (fd, true) := by
    intro other id fd live
    rcases origin id fd live with old | ⟨r, fresh, request, -⟩
    · exact old
    · exact absurd request (other fd r fresh)
  cases prepared with
  | @accept i fd peer n known waiting =>
    have lists := same fun id => rfl
    refine ⟨.congr owned lists ?_ ?_ (old (by simp)), ?_⟩
    · intro j m there
      by_cases here : j = i
      · subst here
        rw [known, Option.some.injEq] at there
        subst there
        refine ⟨{ n with link := .served fd }, by rw [set_nodes, if_pos rfl], ?_, rfl⟩
        intro fd' link
        rw [waiting] at link
        cases link
      · exact ⟨m, by rw [set_nodes, if_neg here, there], fun _ link => link, rfl⟩
    · intro j m there
      rw [set_nodes] at there
      split at there
      next here =>
        cases there
        exact ⟨n, here ▸ known, rfl, rfl⟩
      · exact ⟨m, there, rfl, rfl⟩
    · intro id
      rw [lists]
      congr 1
      funext j
      rw [postedTo, postedTo, set_nodes]
      split
      next here =>
        rw [here, known]
        rfl
      · rfl
  | @request i fresh n fd r known link complete =>
    have staying := linked.staying i n fd known link
    apply owned.request sessions linked known link complete ((upstream i n known).follows complete staying)
    intro id fd' live
    rcases origin id fd' live with old | ⟨r', fresh', request, named, type, free⟩
    · exact .inl old
    · cases request
      exact .inr ⟨rfl, named, type, free⟩
  | lose known link =>
    have lists := same fun id => by
      simp only [admitted]
    refine ⟨.congr owned lists (fun i n known => ⟨n, known, fun _ link => link, rfl⟩)
      (fun i n known => ⟨n, known, rfl, rfl⟩) (old (by simp)), fun id => by rw [lists]⟩
  | datagram =>
    have lists := same fun id => by
      simp only [admitted]
    refine ⟨.congr owned lists (fun i n known => ⟨n, known, fun _ link => link, rfl⟩)
      (fun i n known => ⟨n, known, rfl, rfl⟩) (old (by simp)), fun id => by rw [lists]⟩

/-- The effects of the step go out on the connections. -/
theorem OwnedMidway.broadcast {past' : NetworkHistory} (owned : OwnedMidway (connectionsOf past') w middle)
    (sessions : Sessions trace w) (midway : Midway trace w middle)
    (additions : Additions trace net.server w more) (server : middle.server = net.server)
    (before : ∀ id, (connectionsOf past' id).flatMap (postedTo middle) = delivered id net.server.output) :
    Owned past' (middle.broadcast w) := by
  have effects : ∀ i, (middle.broadcast w).nodes i = (middle.nodes i).map fun n => n.relay w more := by
    intro i
    rw [← dropped_additions additions, ← server]
    rfl
  refine ⟨?_, owned.distinct, ?_, ?_, ?_, ?_⟩
  · intro id i member
    obtain ⟨n, known, name⟩ := owned.named id i member
    refine ⟨n.relay w more, by rw [effects, known, Option.map_some], ?_⟩
    rw [relay_taken]
    exact name
  · intro id fd live
    obtain ⟨front, i, n, split, known, link⟩ := owned.current id fd live
    refine ⟨front, i, n.relay w more, split, by rw [effects, known, Option.map_some], ?_⟩
    exact (relay_served n w more fd).mpr ⟨link, ((sessions.paired fd id).mp live).1⟩
  · intro i n' known' nothing
    rw [effects] at known'
    obtain ⟨n, known, rfl⟩ := Option.map_eq_some_iff.mp known'
    rw [relay_taken] at nothing
    have silent := owned.silent i n known nothing
    by_cases served : ∃ fd, n.link = .served fd
    · obtain ⟨fd, link⟩ := served
      rw [relay_posted n w more link, silent, List.nil_append]
      apply written_nobody additions
      intro id live
      -- A session needs a request, and none has been read.
      obtain ⟨polled, owner⟩ := (sessions.paired fd id).mp live
      rw [sessions.first fd polled, midway.heard i n fd known link, nothing] at owner
      cases owner
    · rw [relay_shut n w more fun fd link => served ⟨fd, link⟩, silent]
  · intro i n' known' something
    rw [effects] at known'
    obtain ⟨n, known, rfl⟩ := Option.map_eq_some_iff.mp known'
    by_cases old : n.posted = []
    · by_cases live : ∃ id fd, n.link = .served fd ∧ session w id = some (fd, true)
      · obtain ⟨id, fd, link, live⟩ := live
        obtain ⟨front, j, m, split, there, link'⟩ := owned.current id fd live
        rw [midway.apart i j n m fd known there link link']
        refine ⟨id, ?_⟩
        rw [split]
        exact List.mem_append_right _ (List.mem_singleton_self j)
      · -- Without a session nothing has been written.
        refine absurd ?_ something
        by_cases served : ∃ fd, n.link = .served fd
        · obtain ⟨fd, link⟩ := served
          rw [relay_posted n w more link, old, List.nil_append]
          exact written_nobody additions fun id there => live ⟨id, fd, link, there⟩
        · rw [relay_shut n w more fun fd link => served ⟨fd, link⟩, old]
    · exact owned.owner i n known old
  · intro id
    have output : (middle.broadcast w).server.output = net.server.output ++ more := additions.output
    rw [output, delivered_append, ← before, owned.broadcast_sent sessions midway additions effects]

end

/-! ## Every run -/

section

variable {rt : RealText} {udpFd tcpListenFd : Fd} {past : NetworkHistory} {net : Network}

theorem owned_of_run (run : (networkSystem rt udpFd tcpListenFd).Run past net)
    (clean : CleanRun (serverTrace rt udpFd tcpListenFd past)) : Owned past net := by
  revert clean
  apply run.invariant (P := fun past net =>
    CleanRun (serverTrace rt udpFd tcpListenFd past) → Owned past net)
  · intro _
    refine ⟨fun id i member => absurd member List.not_mem_nil, fun _ => List.nodup_nil, ?_, ?_, ?_,
      fun _ => rfl⟩
    · intro id fd live
      simp [session, World.recordOf, networkSystem, Network.start, World.start] at live
    · intro i n known
      cases known
    · intro i n known
      cases known
  · intro past net e net' run owned enabled stepped clean
    have run' := run.next enabled stepped
    cases network_step enabled stepped with
    | @launched i id p absent launched =>
      rw [serverTrace_launched] at clean
      refine (owned clean).quiet (fun _ => rfl) rfl ?_ ?_
      · intro j n known
        have other : j ≠ i := by
          rintro rfl
          rw [absent] at known
          cases known
        exact ⟨n, by rw [set_nodes, if_neg other, known], rfl, rfl, rfl⟩
      · intro j n' unknown known'
        rw [set_nodes] at known'
        split at known'
        · cases known'
          rfl
        · rw [unknown] at known'
          cases known'
    | @moved i e n n' known ready moved =>
      rw [serverTrace_moved] at clean
      obtain ⟨link, taken, posted⟩ := step_link moved
      refine (owned clean).quiet (fun _ => rfl) rfl ?_ ?_
      · intro j m there
        by_cases here : j = i
        · subst here
          rw [known, Option.some.injEq] at there
          subst there
          exact ⟨n', by rw [set_nodes, if_pos rfl], link, taken, posted⟩
        · exact ⟨m, by rw [set_nodes, if_neg here, there], rfl, rfl, rfl⟩
      · intro j m unknown there
        rw [set_nodes] at there
        split at there
        next here =>
          rw [here, known] at unknown
          cases unknown
        · rw [unknown] at there
          cases there
    | @served e s middle w prepared allowed handled =>
      have trace : serverTrace rt udpFd tcpListenFd (past ++ [⟨net, e, middle.broadcast w⟩]) =
          serverTrace rt udpFd tcpListenFd past ++ [⟨net.server, s, w⟩] := serverTrace_served prepared
      have sessions' := sessions_of_run (server_run run') (disciplined_of_run run') clean
      rw [trace] at clean sessions'
      have before := ((along_snoc _ _).mp clean).1
      have alone := server_run run
      have healthy := healthy_of_run alone
      have polled := polled_of_run alone
      have outcome := dispatch_outcome healthy allowed handled
      have sessions := sessions_of_run alone (disciplined_of_run run) before
      have linked := linked_of_run run
      obtain ⟨more, additions⟩ := ((sourced_of_run alone).step healthy outcome).2
      obtain ⟨midway, same⟩ := (owned before).prepared sessions linked healthy polled
        (fun i n known => upstream_of_run run known) prepared allowed outcome (middle.broadcast w)
      apply midway.broadcast sessions' (linked.prepared polled prepared allowed outcome) additions
        prepared.server
      intro id
      rw [same, (owned before).sent]

/-- The connections of an id belong to processes of the client that has it. -/
theorem owner_shortId (run : (networkSystem rt udpFd tcpListenFd).Run past net) (owned : Owned past net)
    {id : Bytes} {i : Nat} (member : i ∈ connectionsOf past id) :
    ∃ n, net.nodes i = some n ∧ shortId n.process.id = id := by
  obtain ⟨n, known, name⟩ := owned.named id i member
  obtain ⟨first, head, same⟩ := Option.map_eq_some_iff.mp name
  refine ⟨n, known, ?_⟩
  rw [← (upstream_of_run run known).named first (List.mem_of_mem_head? head), same]

theorem owed_split (run : (networkSystem rt udpFd tcpListenFd).Run past net)
    (clean : CleanRun (serverTrace rt udpFd tcpListenFd past)) (owned : Owned past net) (id : Bytes) :
    owed Covers (actions (serverTrace rt udpFd tcpListenFd past)) id =
      (connectionsOf past id).flatMap (postedTo net) ++ queued net.server id := by
  rw [← (Broker.after_spec _ id).2, ← mailbox_of_run (server_run run) (disciplined_of_run run) clean,
    promised_eq, owned.sent]

/-- What a subscriber has parsed is a stretch of what the broker owes its id, and so nothing
that the documented wildcards do not give it. -/
theorem parsed_owed (run : (networkSystem rt udpFd tcpListenFd).Run past net)
    (clean : CleanRun (serverTrace rt udpFd tcpListenFd past))
    (plain : ∀ body ∈ arrived (serverTrace rt udpFd tcpListenFd past), Plain body) {i : Nat} {n : Node}
    (known : net.nodes i = some n) :
    n.process.parsed <:+: owed Covers (actions (serverTrace rt udpFd tcpListenFd past))
        (shortId n.process.id) ∧
      n.process.parsed.Sublist (owed Documented (actions (serverTrace rt udpFd tcpListenFd past))
        (shortId n.process.id)) := by
  have owned := owned_of_run run clean
  obtain ⟨ahead, split, -⟩ := ((reception_of_run run known).2 plain).flight
  have parsed : n.process.parsed <:+: n.posted := by
    rw [split]
    exact (List.prefix_append _ _).isInfix
  have stretch : n.posted <:+: owed Covers (actions (serverTrace rt udpFd tcpListenFd past))
      (shortId n.process.id) := by
    by_cases nothing : n.posted = []
    · rw [nothing]
      exact List.nil_infix
    · obtain ⟨id, member⟩ := owned.owner i n known nothing
      obtain ⟨m, there, name⟩ := owner_shortId run owned member
      rw [known, Option.some.injEq] at there
      subst there
      rw [name, owed_split run clean owned id]
      obtain ⟨before, later, shape⟩ := List.append_of_mem member
      rw [shape, List.flatMap_append, List.flatMap_cons, postedTo_known known]
      exact ⟨before.flatMap (postedTo net), later.flatMap (postedTo net) ++ queued net.server id, by simp⟩
  refine ⟨parsed.trans stretch, ?_⟩
  exact (parsed.trans stretch).sublist.trans (owed_sublist covers_documented _ _)

theorem parsed_owed_subscribed : ∃ past net n, (networkSystem noReals 3 4).Run past net ∧
    net.nodes 0 = some n ∧ n.process.parsed.length = 1 ∧
    n.process.parsed <:+: owed Covers (actions (serverTrace noReals 3 4 past)) (shortId n.process.id) := by
  obtain ⟨past, net, n, run, known, seen⟩ := exists_served
    (fun past n => n.posted.length = 1 ∧ n.process.parsed = [] ∧ n.process.phase = .atPoll ∧
      n.link ≠ .shut ∧ CleanRun (serverTrace noReals 3 4 past) ∧
      ∀ body ∈ arrived (serverTrace noReals 3 4 past), Plain body) (by decide)
  obtain ⟨one, nothing, phase, opened, clean, plain⟩ := of_decide_eq_true seen
  -- The subscriber reads what is on its way.
  obtain ⟨posted, reads⟩ := reception_of_run run known
  obtain ⟨ahead, split, -, whole⟩ := (reads plain).flight
  rw [nothing, List.nil_append] at split
  obtain ⟨calls, n', moves, parsed, -⟩ := drains noReals (by rw [nothing, split, List.nil_append])
    (whole opened) phase ((reads plain).looping phase)
    (fun body member => arrived_length (posted body (split ▸ member)))
    (fun body member => plain body (posted body (split ▸ member)))
  obtain ⟨more, net', run', -, -, known', trace⟩ := own_run run known moves
  rw [← trace] at clean plain
  exact ⟨past ++ more, net', n', run', known', by rw [parsed, one], (parsed_owed run' clean plain known').1⟩

end

end PubSub.Properties
