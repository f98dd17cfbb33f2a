import PubSub.Properties.Descriptors
import PubSub.Properties.Lines
import PubSub.Properties.Networks

/-!
# Peers and descriptors

A descriptor that the server serves belongs to one connection, and what has been heard on
it are the requests of that connection. With what the subscribers send, this makes every
history of the server in a network a disciplined one.
-/
namespace PubSub.Properties

open General

/-- The server's history and the connections agree. -/
structure Linked (past : History) (net : Network) : Prop where
  heard : ∀ i n fd, net.nodes i = some n → n.link = .served fd →
    fd ∈ net.server.connections ∧ heard past fd = n.taken
  apart : ∀ i j n m fd, net.nodes i = some n → net.nodes j = some m → n.link = .served fd →
    m.link = .served fd → i = j
  waiting : ∀ i n, net.nodes i = some n → n.link = .backlog → n.taken = []
  staying : ∀ i n fd, net.nodes i = some n → n.link = .served fd → ∀ r ∈ n.taken, r.type ≠ .exit

/-- The same in the middle of a step: the connections are those of the server's next state. -/
structure Midway (past : History) (w : World) (middle : Network) : Prop where
  heard : ∀ i n fd, middle.nodes i = some n → n.link = .served fd → heard past fd = n.taken
  apart : ∀ i j n m fd, middle.nodes i = some n → middle.nodes j = some m → n.link = .served fd →
    m.link = .served fd → i = j
  waiting : ∀ i n, middle.nodes i = some n → n.link = .backlog → n.taken = []
  staying : ∀ i n fd, middle.nodes i = some n → n.link = .served fd → fd ∈ w.connections →
    ∀ r ∈ n.taken, r.type ≠ .exit

section

variable {udpFd tcpListenFd : Fd} {trace : History} {net middle : Network} {e : NetworkEvent}
  {s : Event} {w : World}

theorem Midway.broadcast (midway : Midway trace w middle) : Linked trace (middle.broadcast w) := by
  have before : ∀ i n, (middle.broadcast w).nodes i = some n → ∃ m effects,
      middle.nodes i = some m ∧ n = m.relay w effects := by
    intro i n known
    obtain ⟨m, there, rfl⟩ := Option.map_eq_some_iff.mp known
    exact ⟨m, _, there, rfl⟩
  refine ⟨?_, ?_, ?_, ?_⟩
  · intro i n fd known link
    obtain ⟨m, effects, there, rfl⟩ := before i n known
    rw [relay_served] at link
    rw [relay_taken]
    exact ⟨link.2, midway.heard i m fd there link.1⟩
  · intro i j n n' fd known known' link link'
    obtain ⟨m, effects, there, rfl⟩ := before i n known
    obtain ⟨m', effects', there', rfl⟩ := before j n' known'
    rw [relay_served] at link link'
    exact midway.apart i j m m' fd there there' link.1 link'.1
  · intro i n known link
    obtain ⟨m, effects, there, rfl⟩ := before i n known
    rw [relay_backlog] at link
    rw [relay_taken]
    exact midway.waiting i m there link
  · intro i n fd known link
    obtain ⟨m, effects, there, rfl⟩ := before i n known
    rw [relay_served] at link
    rw [relay_taken]
    exact midway.staying i m fd there link.1 link.2

/-- A step of the server that nothing is heard in. -/
theorem Linked.silent (linked : Linked trace net) (same : hear (Properties.heard trace) s =
    Properties.heard trace) : Midway (trace ++ [⟨net.server, s, w⟩]) w net := by
  refine ⟨?_, linked.apart, linked.waiting, ?_⟩
  · intro i n fd known link
    rw [heard_snoc, same]
    exact (linked.heard i n fd known link).2
  · exact fun i n fd known link _ => linked.staying i n fd known link

theorem Linked.accept (linked : Linked trace net) (polled : Polled udpFd tcpListenFd net.server) {i : Nat}
    {n : Node} {fd : Fd} {peer : SockAddr} (known : net.nodes i = some n) (waiting : n.link = .backlog)
    (unused : fd ∉ net.server.openFds) :
    Midway (trace ++ [⟨net.server, .accept fd peer, w⟩]) w (net.set i { n with link := .served fd }) := by
  have nothing := linked.waiting i n known waiting
  -- No connection that is served has the new descriptor.
  have other : ∀ j m fd', net.nodes j = some m → m.link = .served fd' → fd' ≠ fd := by
    rintro j m fd' there link rfl
    exact unused ((polled.opened fd').mpr (.inr (linked.heard j m fd' there link).1))
  refine ⟨?_, ?_, ?_, ?_⟩
  · intro j m fd' there link
    rw [heard_snoc, hear, Function.update_apply]
    rw [set_nodes] at there
    split at there
    · cases there
      cases link
      rw [if_pos rfl]
      exact nothing.symm
    · rw [if_neg (other j m fd' there link)]
      exact (linked.heard j m fd' there link).2
  · intro j k m m' fd' there there' link link'
    rw [set_nodes] at there there'
    split at there
    next first =>
      cases there
      cases link
      split at there'
      next second => rw [first, second]
      next second => exact absurd rfl (other k m' fd there' link')
    next first =>
      split at there'
      next second =>
        cases there'
        cases link'
        exact absurd rfl (other j m fd there link)
      next second => exact linked.apart j k m m' fd' there there' link link'
  · intro j m there link
    rw [set_nodes] at there
    split at there
    · cases there
      cases link
    · exact linked.waiting j m there link
  · intro j m fd' there link _ r member
    rw [set_nodes] at there
    split at there
    · cases there
      rw [nothing] at member
      cases member
    · exact linked.staying j m fd' there link r member

/-- An EXIT is the last that is read from a connection. -/
theorem exit_drops (polled : Polled udpFd tcpListenFd net.server) {fd : Fd} {r : TcpRequest}
    {fresh : ClientPtr} (known : fd ∈ net.server.connections) (type : r.type = .exit)
    (outcome : RequestOutcome fd r (net.server.indexOf fd) fresh net.server w) : fd ∉ w.connections := by
  rcases request_closes outcome with ⟨stays, -⟩ | ⟨-, closed⟩
  · rw [givesUp, type] at stays
    cases stays
  · rw [polled.connections_drop known closed.pollSet, polled.distinct.mem_erase_iff]
    exact fun both => both.1 rfl

theorem Linked.request (linked : Linked trace net) (polled : Polled udpFd tcpListenFd net.server) {i : Nat}
    {n : Node} {fd : Fd} {r : TcpRequest} {fresh : ClientPtr} (known : net.nodes i = some n)
    (link : n.link = .served fd)
    (outcome : RequestOutcome fd r (net.server.indexOf fd) fresh net.server w) :
    Midway (trace ++ [⟨net.server, .request fd r fresh, w⟩]) w (net.set i (n.received r)) := by
  obtain ⟨polledFd, log⟩ := linked.heard i n fd known link
  have other : ∀ j m fd', j ≠ i → net.nodes j = some m → m.link = .served fd' → fd' ≠ fd := by
    rintro j m fd' apart there link' rfl
    exact apart (linked.apart j i m n fd' there known link' link)
  refine ⟨?_, ?_, ?_, ?_⟩
  · intro j m fd' there link'
    rw [heard_snoc, hear, Function.update_apply]
    rw [set_nodes] at there
    split at there
    · cases there
      cases link.symm.trans link'
      rw [if_pos rfl, log]
      rfl
    next apart =>
      rw [if_neg (other j m fd' apart there link')]
      exact (linked.heard j m fd' there link').2
  · intro j k m m' fd' there there' first second
    rw [set_nodes] at there there'
    split at there
    next here =>
      cases there
      cases link.symm.trans first
      split at there'
      next here' => rw [here, here']
      next apart => exact absurd rfl (other k m' fd apart there' second)
    next apart =>
      split at there'
      next here' =>
        cases there'
        cases link.symm.trans second
        exact absurd rfl (other j m fd apart there first)
      next apart' => exact linked.apart j k m m' fd' there there' first second
  · intro j m there backlog
    rw [set_nodes] at there
    split at there
    · cases there
      cases link.symm.trans backlog
    · exact linked.waiting j m there backlog
  · intro j m fd' there link' still q member
    rw [set_nodes] at there
    split at there
    · cases there
      cases link.symm.trans link'
      rw [Node.received, List.mem_append, List.mem_singleton] at member
      rcases member with old | rfl
      · exact linked.staying i n fd known link q old
      · exact fun type => exit_drops polled polledFd type outcome still
    · exact linked.staying j m fd' there link' q member

theorem Linked.prepared (linked : Linked trace net) (polled : Polled udpFd tcpListenFd net.server)
    (prepared : Prepared net e s middle) (enabled : s.Enabled net.server)
    (outcome : Outcome net.server s w) : Midway (trace ++ [⟨net.server, s, w⟩]) w middle := by
  cases prepared with
  | accept known waiting => exact linked.accept polled known waiting enabled
  | request known link complete =>
    cases outcome with
    | requested outcome => exact linked.request polled known link outcome
  | lose known link => exact linked.silent rfl
  | datagram => exact linked.silent rfl

/-- A step of a subscriber. -/
theorem Linked.moved (linked : Linked trace net) {i : Nat} {n n' : Node} (known : net.nodes i = some n)
    (link : n'.link = n.link) (taken : n'.taken = n.taken) : Linked trace (net.set i n') := by
  -- The node has been another one, with the same connection.
  have before : ∀ j m, (net.set i n').nodes j = some m → ∃ m', net.nodes j = some m' ∧
      m.link = m'.link ∧ m.taken = m'.taken := by
    intro j m there
    rw [set_nodes] at there
    split at there
    next here =>
      cases there
      exact ⟨n, here ▸ known, link, taken⟩
    · exact ⟨m, there, rfl, rfl⟩
  refine ⟨?_, ?_, ?_, ?_⟩
  · intro j m fd there served
    obtain ⟨m', there', link, taken⟩ := before j m there
    rw [taken]
    exact linked.heard j m' fd there' (link ▸ served)
  · intro j k m l fd there there' served served'
    obtain ⟨m', old, link, -⟩ := before j m there
    obtain ⟨l', old', link', -⟩ := before k l there'
    exact linked.apart j k m' l' fd old old' (link ▸ served) (link' ▸ served')
  · intro j m there backlog
    obtain ⟨m', there', link, taken⟩ := before j m there
    rw [taken]
    exact linked.waiting j m' there' (link ▸ backlog)
  · intro j m fd there served
    obtain ⟨m', there', link, taken⟩ := before j m there
    rw [taken]
    exact linked.staying j m' fd there' (link ▸ served)

theorem Linked.launch (linked : Linked trace net) {i : Nat} {p : Process} :
    Linked trace (net.set i (.start p)) := by
  refine ⟨?_, ?_, ?_, ?_⟩
  · intro j m fd there served
    rw [set_nodes] at there
    split at there
    · cases there
      cases served
    · exact linked.heard j m fd there served
  · intro j k m m' fd there there' served served'
    rw [set_nodes] at there there'
    split at there
    · cases there
      cases served
    · split at there'
      · cases there'
        cases served'
      · exact linked.apart j k m m' fd there there' served served'
  · intro j m there backlog
    rw [set_nodes] at there
    split at there
    · cases there
      rfl
    · exact linked.waiting j m there backlog
  · intro j m fd there served
    rw [set_nodes] at there
    split at there
    · cases there
      cases served
    · exact linked.staying j m fd there served

end

/-- A step of a subscriber leaves its connection and what has been read from it alone. -/
theorem step_link {rt : RealText} {n n' : Node} {e : NodeEvent} (moved : n.step rt e = some n') :
    n'.link = n.link ∧ n'.taken = n.taken ∧ n'.posted = n.posted := by
  cases e with
  | poll input socket =>
    cases moved
    exact ⟨rfl, rfl, rfl⟩
  | input line =>
    simp only [Node.step] at moved
    split at moved
    next ready phase =>
      cases line with
      | none =>
        cases moved
        exact ⟨rfl, rfl, rfl⟩
      | some line =>
        simp only [Node.input, Option.bind_eq_bind, Option.bind_eq_some_iff] at moved
        obtain ⟨result, -, moved⟩ := moved
        cases moved
        exact ⟨rfl, rfl, rfl⟩
    · cases moved
    · cases moved
    · cases moved
  | message arrivals =>
    cases moved
    exact ⟨rfl, rfl, rfl⟩
  | quit =>
    cases moved
    exact ⟨rfl, rfl, rfl⟩
  | cut kept =>
    cases moved
    exact ⟨rfl, rfl, rfl⟩

/-! ## Every run -/

section

variable {rt : RealText} {udpFd tcpListenFd : Fd} {past : NetworkHistory}
  {net : Network}

theorem linked_of_run (run : (networkSystem rt udpFd tcpListenFd).Run past net) :
    Linked (serverTrace rt udpFd tcpListenFd past) net := by
  apply run.invariant (P := fun past net => Linked (serverTrace rt udpFd tcpListenFd past) net)
  · refine ⟨?_, ?_, ?_, ?_⟩
    · intro i n fd known
      cases known
    · intro i j n m fd known
      cases known
    · intro i n known
      cases known
    · intro i n fd known
      cases known
  · intro past net e net' run linked enabled stepped
    cases network_step enabled stepped with
    | launched absent launched =>
      rw [serverTrace_launched]
      exact linked.launch
    | moved known ready moved =>
      obtain ⟨link, taken, -⟩ := step_link moved
      rw [serverTrace_moved]
      exact linked.moved known link taken
    | served prepared allowed handled =>
      have alone := server_run run
      rw [serverTrace_served prepared]
      exact (linked.prepared (polled_of_run alone) prepared allowed
        (dispatch_outcome (healthy_of_run alone) allowed handled)).broadcast

/-- The peers of a server in a network behave as subscribers do, since that is what they are. -/
theorem disciplined_of_run (run : (networkSystem rt udpFd tcpListenFd).Run past net) :
    Disciplined (serverTrace rt udpFd tcpListenFd past) := by
  apply run.invariant (P := fun past _ => Disciplined (serverTrace rt udpFd tcpListenFd past))
  · trivial
  · intro past net e net' run disciplined enabled stepped
    cases network_step enabled stepped with
    | launched absent launched =>
      rw [serverTrace_launched]
      exact disciplined
    | moved known ready moved =>
      rw [serverTrace_moved]
      exact disciplined
    | served prepared allowed handled =>
      rw [serverTrace_served prepared, Disciplined, along_snoc]
      refine ⟨disciplined, ?_⟩
      cases prepared with
      | accept known waiting => trivial
      | @request i fresh n fd r known link complete =>
        have linked := linked_of_run run
        have log := (linked.heard i n fd known link).2
        have follows := (upstream_of_run run known).follows complete (linked.staying i n fd known link)
        rw [← log] at follows
        exact follows
      | lose known link => trivial
      | datagram => trivial

/-- In every run of a network the server has a disciplined history, and what it has read from
a connection are the packets of the subscriber at the other end: whole, in order, each
once, with only those in flight missing. -/
theorem requests_in_order (run : (networkSystem rt udpFd tcpListenFd).Run past net) :
    Disciplined (serverTrace rt udpFd tcpListenFd past) ∧ ∀ i n, net.nodes i = some n →
      (∃ ahead, n.process.sent = n.taken.map TcpRequest.bytes ++ ahead ∧ n.up = ahead.flatten) ∧
        (∀ r ∈ n.taken, r.clientId = shortId n.process.id) ∧
        ∀ fd, n.link = .served fd → heard (serverTrace rt udpFd tcpListenFd past) fd = n.taken := by
  refine ⟨disciplined_of_run run, ?_⟩
  intro i n known
  have upstream := upstream_of_run run known
  exact ⟨upstream.flight, upstream.named, fun fd link => ((linked_of_run run).heard i n fd known link).2⟩

end

/-! ## A subscription over the network -/

/-- A client connects and subscribes, and there is a datagram for it. -/
def overTheNetwork : List NetworkEvent :=
  [.launch 0 (ascii "A"), .accept 0 5 default, .request 0 1, .node 0 (.poll true false),
    .node 0 (.input (some (ascii "subscribe a 1\n"))), .request 0 9,
    .datagram (exampleDatagram "a") (fun _ => 7) 100]

/-- A check of the client that is true behind these steps. -/
theorem exists_served (check : NetworkHistory → Node → Bool)
    (passes : ((networkSystem noReals 3 4).replay [] (networkSystem noReals 3 4).start
      overTheNetwork).any (fun r => (r.2.nodes 0).any (check r.1)) = true) :
    ∃ past net n, (networkSystem noReals 3 4).Run past net ∧ net.nodes 0 = some n ∧
      check past n = true := by
  obtain ⟨past, net, run, seen⟩ := System.exists_run (S := networkSystem noReals 3 4) overTheNetwork
    (fun past net => (net.nodes 0).any (check past)) passes
  obtain ⟨n, known, holds⟩ := (Option.any_eq_true _ _).mp seen
  exact ⟨past, net, n, run, known, holds⟩

theorem requests_in_order_subscribed : ∃ past net n, (networkSystem noReals 3 4).Run past net ∧
    net.nodes 0 = some n ∧ n.taken.length = 2 ∧ heard (serverTrace noReals 3 4 past) 5 = n.taken := by
  obtain ⟨past, net, n, run, known, seen⟩ := exists_served
    (fun _ n => n.taken.length = 2 ∧ n.link = .served 5) (by decide)
  obtain ⟨two, link⟩ := of_decide_eq_true seen
  exact ⟨past, net, n, run, known, two, ((requests_in_order run).2 0 n known).2.2 5 link⟩

end PubSub.Properties
