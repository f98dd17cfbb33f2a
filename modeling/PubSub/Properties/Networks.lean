import PubSub.Properties.Packets
import PubSub.Properties.Writes
import PubSub.Network.System
import PubSub.General.Refinement

/-!
# Servers in a network

What the server does in a network is a run of the server alone, so everything that has
been proved of its runs holds there. What it could not know alone is who its peers are:
here they are subscribers, and the server's history is one that subscribers make.
-/
namespace PubSub.Properties

open General

/-! ## What a step can be -/

/-- The network in front of the handler call of the server, and the event it is called for. -/
inductive Prepared (net : Network) : NetworkEvent → Event → Network → Prop
  | accept {i fd peer n} : net.nodes i = some n → n.link = .backlog →
      Prepared net (.accept i fd peer) (.accept fd peer) (net.set i { n with link := .served fd })
  | request {i fresh n fd r} : net.nodes i = some n → n.link = .served fd → n.request = some r →
      Prepared net (.request i fresh) (.request fd r fresh) (net.set i (n.received r))
  | lose {i n fd} : net.nodes i = some n → n.link = .served fd →
      Prepared net (.lose i) (.disconnect fd) net
  | datagram {d stale message} :
      Prepared net (.datagram d stale message) (.datagram d stale message) net

inductive NetworkStep (rt : RealText) (net : Network) : NetworkEvent → Network → Prop
  | launched {i id p} : net.nodes i = none → Process.launch id = some p →
      NetworkStep rt net (.launch i id) (net.set i (.start p))
  | moved {i e n n'} : net.nodes i = some n → n.Ready rt e → n.step rt e = some n' →
      NetworkStep rt net (.node i e) (net.set i n')
  | served {e s middle w} : Prepared net e s middle → s.Enabled net.server →
      net.server.dispatch s = some w → NetworkStep rt net e (middle.broadcast w)

@[simp] theorem set_server (net : Network) (i : Nat) (n : Node) : (net.set i n).server = net.server := rfl

theorem set_nodes (net : Network) (i j : Nat) (n : Node) :
    (net.set i n).nodes j = if j = i then some n else net.nodes j := by
  simp only [Network.set, Function.update_apply]

section

variable {rt : RealText} {net net' middle : Network} {e : NetworkEvent} {s : Event}

theorem Prepared.server (prepared : Prepared net e s middle) : middle.server = net.server := by
  cases prepared <;> rfl

theorem Prepared.event (prepared : Prepared net e s middle) : net.serverEvent e = some s := by
  cases prepared with
  | accept known waiting => rfl
  | request known link complete =>
    simp only [Network.serverEvent, known, Option.bind_some, link, complete, Option.map_some]
  | lose known link => simp only [Network.serverEvent, known, Option.bind_some, link]
  | datagram => rfl

theorem network_step (enabled : net.Enabled rt e) (stepped : net.step rt e = some net') :
    NetworkStep rt net e net' := by
  cases e with
  | launch i id =>
    simp only [Network.step, Option.bind_eq_bind, Option.bind_eq_some_iff] at stepped
    obtain ⟨p, launched, stepped⟩ := stepped
    cases stepped
    exact .launched enabled launched
  | node i e =>
    simp only [Network.step, Option.bind_eq_bind, Option.bind_eq_some_iff] at stepped
    obtain ⟨n, known, n', moved, stepped⟩ := stepped
    cases stepped
    obtain ⟨m, same, ready⟩ := enabled
    rw [Option.mem_def, known, Option.some.injEq] at same
    subst same
    exact .moved known ready moved
  | accept i fd peer =>
    simp only [Network.step, Network.serve, Option.bind_eq_bind, Option.bind_eq_some_iff,
      Option.map_eq_some_iff] at stepped
    obtain ⟨n, known, w, handled, rfl⟩ := stepped
    obtain ⟨⟨m, same, waiting⟩, unused⟩ := enabled
    rw [Option.mem_def, known, Option.some.injEq] at same
    subst same
    exact .served (.accept known waiting) unused handled
  | request i fresh =>
    simp only [Network.step, Network.serve, Option.bind_eq_bind, Option.bind_eq_some_iff,
      Option.map_eq_some_iff] at stepped
    obtain ⟨n, known, r, complete, s, event, w, handled, rfl⟩ := stepped
    obtain ⟨s', same, allowed⟩ := enabled
    rw [Option.mem_def, event, Option.some.injEq] at same
    subst same
    simp only [Network.serverEvent, known, Option.bind_some] at event
    split at event
    next fd link =>
      rw [complete, Option.map_some, Option.some.injEq] at event
      subst event
      exact .served (.request known link complete) allowed handled
    · cases event
    · cases event
  | lose i =>
    simp only [Network.step, Network.serve, Option.bind_eq_bind, Option.bind_eq_some_iff,
      Option.map_eq_some_iff] at stepped
    obtain ⟨s, event, w, handled, rfl⟩ := stepped
    obtain ⟨s', same, allowed⟩ := enabled
    rw [Option.mem_def, event, Option.some.injEq] at same
    subst same
    simp only [Network.serverEvent, Option.bind_eq_some_iff] at event
    obtain ⟨n, known, event⟩ := event
    split at event
    next fd link =>
      cases event
      exact .served (.lose known link) allowed handled
    · cases event
    · cases event
  | datagram d stale message =>
    simp only [Network.step, Network.serve, Network.serverEvent, Option.bind_eq_bind, Option.bind_some,
      Option.map_eq_some_iff] at stepped
    obtain ⟨w, handled, rfl⟩ := stepped
    obtain ⟨s, same, allowed⟩ := enabled
    cases same
    exact .served .datagram allowed handled

end

variable (rt : RealText) (udpFd tcpListenFd : Fd)

/-- A network refines its server. -/
def networkRefinement : Refinement (networkSystem rt udpFd tcpListenFd) (serverSystem udpFd tcpListenFd) where
  image := Network.server
  label := Network.serverEvent
  start := rfl
  seen past net e net' s run enabled stepped label := by
    cases network_step enabled stepped with
    | launched absent launched => cases label
    | moved known ready moved => cases label
    | served prepared allowed handled =>
      rw [prepared.event, Option.some.injEq] at label
      subst label
      exact ⟨allowed, handled⟩
  unseen past net e net' run enabled stepped label := by
    cases network_step enabled stepped with
    | launched absent launched => rfl
    | moved known ready moved => rfl
    | served prepared allowed handled =>
      rw [prepared.event] at label
      cases label

/-- The history of the server in a network. -/
def serverTrace (past : NetworkHistory) : History :=
  (networkRefinement rt udpFd tcpListenFd).trace past

section

variable {rt udpFd tcpListenFd} {past : NetworkHistory} {net net' middle : Network}
  {e : NetworkEvent} {s : Event} {w : World}

theorem server_run (run : (networkSystem rt udpFd tcpListenFd).Run past net) :
    (serverSystem udpFd tcpListenFd).Run (serverTrace rt udpFd tcpListenFd past) net.server :=
  (networkRefinement rt udpFd tcpListenFd).run run

theorem serverTrace_served (prepared : Prepared net e s middle) :
    serverTrace rt udpFd tcpListenFd (past ++ [⟨net, e, middle.broadcast w⟩]) =
      serverTrace rt udpFd tcpListenFd past ++ [⟨net.server, s, w⟩] :=
  (networkRefinement rt udpFd tcpListenFd).trace_seen prepared.event

theorem serverTrace_launched (i : Nat) (id : Bytes) :
    serverTrace rt udpFd tcpListenFd (past ++ [⟨net, .launch i id, net'⟩]) =
      serverTrace rt udpFd tcpListenFd past :=
  (networkRefinement rt udpFd tcpListenFd).trace_unseen rfl

theorem serverTrace_moved (i : Nat) (e : NodeEvent) :
    serverTrace rt udpFd tcpListenFd (past ++ [⟨net, .node i e, net'⟩]) =
      serverTrace rt udpFd tcpListenFd past :=
  (networkRefinement rt udpFd tcpListenFd).trace_unseen rfl

end

/-! ## What a handler call does to a connection -/

section

variable (n : Node) (after : World) (effects : List Effect)

@[simp] theorem relay_process : (n.relay after effects).process = n.process := by
  cases link : n.link <;> simp [Node.relay, link]

@[simp] theorem relay_up : (n.relay after effects).up = n.up := by
  cases link : n.link <;> simp [Node.relay, link]

@[simp] theorem relay_taken : (n.relay after effects).taken = n.taken := by
  cases link : n.link <;> simp [Node.relay, link]

theorem relay_served (fd : Fd) : (n.relay after effects).link = .served fd ↔
    n.link = .served fd ∧ fd ∈ after.connections := by
  cases link : n.link with
  | backlog => simp [Node.relay, link]
  | shut => simp [Node.relay, link]
  | served other =>
    simp only [Node.relay, link]
    by_cases known : other ∈ after.connections
    · rw [if_pos known]
      simp only [Link.served.injEq]
      exact ⟨fun same => ⟨same, same ▸ known⟩, And.left⟩
    · rw [if_neg known]
      simp only [Link.served.injEq, reduceCtorEq, false_iff, not_and]
      exact fun same => same ▸ known

theorem relay_backlog : (n.relay after effects).link = .backlog ↔ n.link = .backlog := by
  cases link : n.link with
  | backlog => simp [Node.relay, link]
  | shut => simp [Node.relay, link]
  | served fd =>
    simp only [Node.relay, link, reduceCtorEq, iff_false]
    split <;> simp

end

/-! ## Properties of all subscribers -/

section

variable {rt udpFd tcpListenFd} {past : NetworkHistory} {net : Network}

theorem dropped_additions {trace : History} {w w' : World} {more : List Effect}
    (additions : Additions trace w w' more) : w'.output.drop w.output.length = more := by
  rw [additions.output, List.drop_left]

/-- A property of a subscriber and its connection holds of all of them in every run if it
holds at the start and survives whatever can happen to them. -/
theorem nodes_of_run {P : History → Node → Prop}
    (later : ∀ trace x n, P trace n → P (trace ++ [x]) n)
    (launched : ∀ trace id p, Process.launch id = some p → P trace (.start p))
    (moved : ∀ trace n e n', P trace n → n.Ready rt e → n.step rt e = some n' → P trace n')
    (accepted : ∀ trace n fd, P trace n → n.link = .backlog → P trace { n with link := .served fd })
    (received : ∀ trace n r, P trace n → n.request = some r → P trace (n.received r))
    (relayed : ∀ trace n w w' more, P trace n → Additions trace w w' more → P trace (n.relay w' more))
    (run : (networkSystem rt udpFd tcpListenFd).Run past net) :
    ∀ i n, net.nodes i = some n → P (serverTrace rt udpFd tcpListenFd past) n := by
  apply run.invariant (P := fun past net =>
    ∀ i n, net.nodes i = some n → P (serverTrace rt udpFd tcpListenFd past) n)
  · intro i n known
    cases known
  · intro past net e net' run holds enabled stepped i n known
    cases network_step enabled stepped with
    | @launched j id p absent started =>
      rw [serverTrace_launched]
      rw [set_nodes] at known
      split at known
      · cases known
        exact launched _ id p started
      · exact holds i n known
    | @moved j e m m' before ready moves =>
      rw [serverTrace_moved]
      rw [set_nodes] at known
      split at known
      · cases known
        exact moved _ m e _ (holds j m before) ready moves
      · exact holds i n known
    | @served e s middle w prepared allowed handled =>
      have alone := server_run run
      have healthy := healthy_of_run alone
      obtain ⟨more, additions⟩ :=
        ((sourced_of_run alone).step healthy (dispatch_outcome healthy allowed handled)).2
      rw [serverTrace_served prepared]
      obtain ⟨m, there, rfl⟩ := Option.map_eq_some_iff.mp known
      rw [prepared.server, dropped_additions additions]
      -- The rest is about the connection in front of the handler call.
      refine relayed _ m _ _ more ?_ additions
      have still := fun i n known => later _ ⟨net.server, s, w⟩ n (holds i n known)
      cases prepared with
      | accept before waiting =>
        rw [set_nodes] at there
        split at there
        · cases there
          exact accepted _ _ _ (still _ _ before) waiting
        · exact still i m there
      | request before link complete =>
        rw [set_nodes] at there
        split at there
        · cases there
          exact received _ _ _ (still _ _ before) complete
        · exact still i m there
      | lose before link => exact still i m there
      | datagram => exact still i m there

end

/-! ## From the subscribers to the server -/

/-- What the server has read are packets of this client, in order, and the others are on
their way. -/
structure Upstream (n : Node) : Prop where
  stamped : ∀ packet ∈ n.process.sent, Stamped n.process.id packet
  first : ∃ packet rest, n.process.sent = packet :: rest ∧
    ∃ size, TcpRequest.type ⟨packet, size⟩ = .message
  flight : ∃ ahead, n.process.sent = n.taken.map TcpRequest.bytes ++ ahead ∧ n.up = ahead.flatten

section

variable {n n' : Node}

theorem Upstream.launch {id : Bytes} {p : Process} (launched : Process.launch id = some p) :
    Upstream (.start p) := by
  simp only [Process.launch, Option.bind_eq_bind, Option.bind_eq_some_iff] at launched
  obtain ⟨packet, sent, launched⟩ := launched
  cases launched
  obtain ⟨stamped, connect⟩ := connect_stamped sent
  refine ⟨?_, ⟨packet, [], rfl, stamped.size, connect⟩, ⟨[packet], rfl, rfl⟩⟩
  intro other member
  rw [List.mem_singleton.mp member]
  exact stamped

/-- More packets at the end. -/
theorem Upstream.send (upstream : Upstream n) (packets : List Bytes)
    (stamped : ∀ packet ∈ packets, Stamped n.process.id packet) (id : n'.process.id = n.process.id)
    (sent : n'.process.sent = n.process.sent ++ packets) (up : n'.up = n.up ++ packets.flatten)
    (taken : n'.taken = n.taken) : Upstream n' := by
  obtain ⟨packet, rest, shape, connect⟩ := upstream.first
  obtain ⟨ahead, split, flight⟩ := upstream.flight
  refine ⟨?_, ⟨packet, rest ++ packets, ?_, connect⟩, ⟨ahead ++ packets, ?_, ?_⟩⟩
  · intro other member
    rw [sent, List.mem_append] at member
    rw [id]
    exact member.elim (upstream.stamped other) (stamped other)
  · rw [sent, shape, List.cons_append]
  · rw [sent, taken, split, List.append_assoc]
  · rw [up, flight, List.flatten_append]

theorem Upstream.congr (upstream : Upstream n) (id : n'.process.id = n.process.id)
    (sent : n'.process.sent = n.process.sent) (up : n'.up = n.up) (taken : n'.taken = n.taken) :
    Upstream n' :=
  upstream.send [] (by simp) id (by simp [sent]) (by simp [up]) taken

theorem Upstream.move {e : NodeEvent} (upstream : Upstream n) (moved : n.step rt e = some n') :
    Upstream n' := by
  cases e with
  | poll input socket =>
    cases moved
    exact upstream.congr rfl rfl rfl rfl
  | input line =>
    simp only [Node.step] at moved
    split at moved
    next ready phase =>
      cases line with
      | none =>
        cases moved
        exact upstream.congr (by simp) (by simp) rfl rfl
      | some line =>
        simp only [Node.input, Option.bind_eq_bind, Option.bind_eq_some_iff] at moved
        obtain ⟨result, handled, moved⟩ := moved
        cases moved
        exact upstream.send _ (input_stamped handled) (by simp) (by simp) rfl rfl
    · cases moved
    · cases moved
    · cases moved
  | message arrivals =>
    cases moved
    exact upstream.congr (by simp [Node.message]) (by simp [Node.message]) rfl rfl
  | quit =>
    cases moved
    exact upstream.congr rfl rfl rfl rfl
  | cut kept =>
    cases moved
    exact upstream.congr rfl rfl rfl rfl

/-- A complete record is the next packet of the client. -/
theorem Upstream.next (upstream : Upstream n) {r : TcpRequest} (complete : n.request = some r) :
    ∃ rest, n.process.sent = n.taken.map TcpRequest.bytes ++ r.bytes :: rest ∧
      (n.received r).up = rest.flatten := by
  obtain ⟨ahead, split, flight⟩ := upstream.flight
  simp only [Node.request] at complete
  split at complete
  next enough =>
    cases complete
    cases ahead with
    | nil =>
      rw [flight] at enough
      exact absurd enough (by decide)
    | cons packet rest =>
      have size : packet.length = sizeofTcpRequest := by
        refine (upstream.stamped packet ?_).size
        rw [split]
        simp
      have front : n.up.take sizeofTcpRequest = packet := by
        rw [flight, List.flatten_cons, List.take_left' size]
      have behind : n.up.drop sizeofTcpRequest = rest.flatten := by
        rw [flight, List.flatten_cons, List.drop_left' size]
      exact ⟨rest, by simp only [split, front], behind⟩
  · cases complete

theorem Upstream.receive (upstream : Upstream n) {r : TcpRequest} (complete : n.request = some r) :
    Upstream (n.received r) := by
  obtain ⟨rest, split, flight⟩ := upstream.next complete
  exact ⟨upstream.stamped, upstream.first, ⟨rest, by simpa [Node.received] using split, flight⟩⟩

/-- All that has been read names this client. -/
theorem Upstream.named (upstream : Upstream n) : ∀ r ∈ n.taken, r.clientId = shortId n.process.id := by
  intro r member
  obtain ⟨ahead, split, -⟩ := upstream.flight
  refine (upstream.stamped r.bytes ?_).clientId
  rw [split, List.mem_append]
  exact .inl (List.mem_map_of_mem member)

/-- The next record is one that a subscriber may send behind those that have been read. -/
theorem Upstream.follows (upstream : Upstream n) {r : TcpRequest} (complete : n.request = some r)
    (staying : ∀ q ∈ n.taken, q.type ≠ .exit) : AsSubscriber n.taken r := by
  obtain ⟨rest, split, -⟩ := upstream.next complete
  refine ⟨?_, ?_, staying⟩
  · intro begin
    obtain ⟨packet, others, shape, size, connect⟩ := upstream.first
    rw [begin, shape, List.map_nil, List.nil_append, List.cons.injEq] at split
    obtain ⟨rfl, -⟩ := split
    exact connect
  · intro first member
    rw [upstream.named first (List.mem_of_mem_head? member)]
    refine (upstream.stamped r.bytes ?_).clientId
    rw [split]
    simp

end

theorem upstream_of_run {rt : RealText} {udpFd tcpListenFd : Fd}
    {past : NetworkHistory} {net : Network}
    (run : (networkSystem rt udpFd tcpListenFd).Run past net) {i : Nat} {n : Node}
    (known : net.nodes i = some n) : Upstream n := by
  apply nodes_of_run (P := fun _ n => Upstream n) _ _ _ _ _ _ run i n known
  · exact fun _ _ _ upstream => upstream
  · exact fun _ _ _ launched => .launch launched
  · exact fun _ _ _ _ upstream _ moved => upstream.move rt moved
  · exact fun _ _ _ upstream _ => upstream.congr rfl rfl rfl rfl
  · exact fun _ _ _ upstream complete => upstream.receive complete
  · exact fun _ _ _ _ _ upstream _ => upstream.congr (by simp) (by simp) (by simp) (by simp)

end PubSub.Properties
