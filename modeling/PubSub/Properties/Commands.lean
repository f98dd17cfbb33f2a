import PubSub.Properties.Console
import PubSub.Properties.Peers

/-!
# From the keyboard to the server

A user types, other users type, and the network takes its time. What the server reads from
a connection is what was typed at the other end of it.
-/
namespace PubSub.Properties

open General

/-! ## What has been typed -/

/-- The line that a subscriber reads from standard input in this step, if any. -/
def typedLine : NodeEvent → Option Bytes
  | .input line => line
  | _ => none

def keyedIn (i : Nat) (x : Transition Network NetworkEvent) : Option Bytes :=
  match x.event with
  | .node j e => if j = i then typedLine e else none
  | _ => none

/-- The lines that subscriber `i` has read so far. -/
def keyed (past : NetworkHistory) (i : Nat) : List Bytes := past.filterMap (keyedIn i)

theorem keyed_snoc (past : NetworkHistory) (x : Transition Network NetworkEvent) (i : Nat) :
    keyed (past ++ [x]) i = keyed past i ++ (keyedIn i x).toList := by
  rw [keyed, List.filterMap_append]
  cases seen : keyedIn i x <;> simp [keyed, seen]

section

variable {rt : RealText} {udpFd tcpListenFd : Fd} {past : NetworkHistory} {net net' : Network}

theorem keyed_quiet {i : Nat} {e : NetworkEvent} (quiet : keyedIn i ⟨net, e, net'⟩ = none) :
    keyed (past ++ [⟨net, e, net'⟩]) i = keyed past i := by
  rw [keyed_snoc, quiet]
  exact List.append_nil _

/-- A step of the server leaves the processes as they are. -/
theorem served_process {e : NetworkEvent} {s : Event} {middle : Network} {w : World}
    (prepared : Prepared net e s middle) (j : Nat) :
    ((middle.broadcast w).nodes j).map Node.process = (net.nodes j).map Node.process := by
  have before : (middle.nodes j).map Node.process = (net.nodes j).map Node.process := by
    cases prepared with
    | @accept i fd peer n known waiting =>
      by_cases here : j = i
      · rw [set_nodes, if_pos here, here, known]
        rfl
      · rw [set_nodes, if_neg here]
    | @request i fresh n fd r known link complete =>
      by_cases here : j = i
      · rw [set_nodes, if_pos here, here, known]
        rfl
      · rw [set_nodes, if_neg here]
    | lose => rfl
    | datagram => rfl
  rw [← before]
  simp only [Network.broadcast, Option.map_map]
  cases middle.nodes j with
  | none => rfl
  | some n => simp

/-- What a subscriber makes of the lines it reads: a property of both holds in every run if it
holds of a process that has just started and survives its steps. -/
theorem typing_of_run {P : List Bytes → Process → Prop}
    (launched : ∀ id p, Process.launch id = some p → P [] p)
    (moved : ∀ lines (n n' : Node) e, P lines n.process → n.step rt e = some n' →
      P (lines ++ (typedLine e).toList) n'.process)
    (run : (networkSystem rt udpFd tcpListenFd).Run past net) :
    ∀ i n, net.nodes i = some n → P (keyed past i) n.process := by
  -- Nothing has been typed before a subscriber starts.
  have both : (∀ i, net.nodes i = none → keyed past i = []) ∧
      ∀ i n, net.nodes i = some n → P (keyed past i) n.process := by
    apply run.invariant (P := fun past net => (∀ i, net.nodes i = none → keyed past i = []) ∧
      ∀ i n, net.nodes i = some n → P (keyed past i) n.process)
    · exact ⟨fun _ _ => rfl, fun _ _ known => by cases known⟩
    · intro past net e net' run before enabled stepped
      obtain ⟨silent, typing⟩ := before
      cases network_step enabled stepped with
      | @launched j id p absent started =>
        have same : ∀ i, keyed (past ++ [⟨net, .launch j id, net.set j (.start p)⟩]) i = keyed past i :=
          fun i => keyed_quiet rfl
        constructor
        · intro i nobody
          rw [set_nodes] at nobody
          split at nobody
          · cases nobody
          · rw [same, silent i nobody]
        · intro i n known
          rw [set_nodes] at known
          rw [same]
          split at known
          next here =>
            cases known
            rw [here, silent j absent]
            exact launched id p started
          · exact typing i n known
      | @moved j e m m' there ready moves =>
        have other : ∀ i, i ≠ j → keyed (past ++ [⟨net, .node j e, net.set j m'⟩]) i = keyed past i :=
          fun i apart => keyed_quiet (if_neg (Ne.symm apart))
        constructor
        · intro i nobody
          rw [set_nodes] at nobody
          split at nobody
          · cases nobody
          next apart => rw [other i apart, silent i nobody]
        · intro i n known
          rw [set_nodes] at known
          split at known
          next here =>
            cases known
            have line : keyedIn i ⟨net, .node j e, net.set j m'⟩ = typedLine e := if_pos here.symm
            rw [keyed_snoc, line, here]
            exact moved _ m m' e (typing j m there) moves
          next apart =>
            rw [other i apart]
            exact typing i n known
      | @served e s middle w prepared allowed handled =>
        have same : ∀ i, keyed (past ++ [⟨net, e, middle.broadcast w⟩]) i = keyed past i := by
          intro i
          apply keyed_quiet
          cases prepared <;> rfl
        constructor
        · intro i nobody
          have process := served_process (w := w) prepared i
          rw [nobody, Option.map_none, eq_comm, Option.map_eq_none_iff] at process
          rw [same, silent i process]
        · intro i n known
          have process := served_process (w := w) prepared i
          rw [known, Option.map_some, eq_comm, Option.map_eq_some_iff] at process
          obtain ⟨m, there, process⟩ := process
          rw [same, ← process]
          exact typing i m there
  exact both.2

/-! ## The packets for the lines -/

/-- The packets that `handle_user_input` sends for a line. -/
def packetsFor (id line : Bytes) : List Bytes :=
  ((handleUserInput line id).map CommandResult.sent).getD []

theorem step_sent {n n' : Node} {e : NodeEvent} (moved : n.step rt e = some n') :
    n'.process.id = n.process.id ∧ n'.process.sent = n.process.sent ++
      (typedLine e).toList.flatMap (packetsFor n.process.id) := by
  cases e with
  | poll input socket =>
    cases moved
    exact ⟨rfl, (List.append_nil _).symm⟩
  | input line =>
    simp only [Node.step] at moved
    split at moved
    next ready phase =>
      cases line with
      | none =>
        cases moved
        exact ⟨by simp, by simp [typedLine]⟩
      | some line =>
        simp only [Node.input, Option.bind_eq_bind, Option.bind_eq_some_iff] at moved
        obtain ⟨result, handled, moved⟩ := moved
        cases moved
        exact ⟨by simp, by simp [typedLine, packetsFor, handled]⟩
    · cases moved
    · cases moved
    · cases moved
  | message arrivals =>
    cases moved
    exact ⟨by simp [Node.message], by simp [Node.message, typedLine]⟩
  | quit =>
    cases moved
    exact ⟨rfl, (List.append_nil _).symm⟩
  | cut kept =>
    cases moved
    exact ⟨rfl, (List.append_nil _).symm⟩

/-- The packets of a subscriber are its CONNECT and those for the lines it has read. -/
theorem sent_of_run (run : (networkSystem rt udpFd tcpListenFd).Run past net) {i : Nat} {n : Node}
    (known : net.nodes i = some n) : ∃ connect, sendConnectMessage n.process.id = some connect ∧
      n.process.sent = connect :: (keyed past i).flatMap (packetsFor n.process.id) := by
  apply typing_of_run (P := fun lines p => ∃ connect, sendConnectMessage p.id = some connect ∧
    p.sent = connect :: lines.flatMap (packetsFor p.id)) _ _ run i n known
  · intro id p launched
    simp only [Process.launch, Option.bind_eq_bind, Option.bind_eq_some_iff] at launched
    obtain ⟨packet, sent, launched⟩ := launched
    cases launched
    exact ⟨packet, sent, rfl⟩
  · rintro lines n n' e ⟨connect, first, sent⟩ moved
    obtain ⟨id, more⟩ := step_sent moved
    refine ⟨connect, id ▸ first, ?_⟩
    rw [more, sent, id, List.flatMap_append, List.cons_append]

end

/-! ## What the server reads -/

/-- A line that is typed, and the request that the server reads for it. -/
inductive Reads (id : UserId) : Bytes → TcpRequest → Prop
  | command {u r} : ReadAs id u r → Reads id (commandLine u.words) r
  | exit {r} : r.type = .exit → Reads id (commandLine [ascii "exit"]) r

/-- The lines that send a request which the server understands. -/
def Sends (id : UserId) (line : Bytes) : Prop :=
  (∃ u, line = commandLine u.words ∧ RoundTrip id u) ∨ line = commandLine [ascii "exit"]

theorem packetsFor_sends {id : UserId} {line : Bytes} (sends : Sends id line) :
    ∃ r, packetsFor id.text line = [r.bytes] ∧ Reads id line r := by
  rcases sends with ⟨u, rfl, r, here, carries⟩ | rfl
  · obtain ⟨printed, done⟩ := handleUserInput_sent here
    exact ⟨r, by rw [packetsFor, done]; rfl, .command carries⟩
  · obtain ⟨r, done, type⟩ := handleUserInput_exit id
    exact ⟨r, by rw [packetsFor, done]; rfl, .exit type⟩

theorem packetsFor_lines {id : UserId} {lines : List Bytes} (sends : ∀ line ∈ lines, Sends id line) :
    ∃ requests, lines.flatMap (packetsFor id.text) = requests.map TcpRequest.bytes ∧
      List.Forall₂ (Reads id) lines requests := by
  induction lines with
  | nil => exact ⟨[], rfl, .nil⟩
  | cons line lines ih =>
    rw [List.forall_mem_cons] at sends
    obtain ⟨r, here, reads⟩ := packetsFor_sends sends.1
    obtain ⟨requests, later, all⟩ := ih sends.2
    exact ⟨r :: requests, by rw [List.flatMap_cons, here, later]; rfl, .cons reads all⟩

theorem bytes_injective : Function.Injective TcpRequest.bytes := by
  rintro ⟨bytes, size⟩ ⟨bytes', size'⟩ same
  cases same
  rfl

section

variable {rt : RealText} {udpFd tcpListenFd : Fd} {past : NetworkHistory} {net : Network}

/-- In every run of a network, what the server has read from a connection is a CONNECT and
then, in order, what was typed at the keyboard of the subscriber at its other end; what has
been typed and not been read is on its way. -/
theorem commands_arrive (run : (networkSystem rt udpFd tcpListenFd).Run past net) {i : Nat} {n : Node}
    (known : net.nodes i = some n) {id : UserId} (named : n.process.id = id.text)
    (sends : ∀ line ∈ keyed past i, Sends id line) :
    ∃ connect requests ahead, n.taken ++ ahead = connect :: requests ∧
      n.up = (ahead.map TcpRequest.bytes).flatten ∧ connect.type = .message ∧
      List.Forall₂ (Reads id) (keyed past i) requests ∧
      ∀ fd, n.link = .served fd → heard (serverTrace rt udpFd tcpListenFd past) fd = n.taken := by
  obtain ⟨packet, first, sent⟩ := sent_of_run run known
  obtain ⟨stamped, connect⟩ := connect_stamped first
  obtain ⟨requests, later, reads⟩ := packetsFor_lines sends
  obtain ⟨ahead, split, flight⟩ := (upstream_of_run run known).flight
  rw [named, later] at sent
  -- The records are those of the packets that have been sent.
  have whole : (⟨packet, stamped.size⟩ :: requests : List TcpRequest).map TcpRequest.bytes =
      n.taken.map TcpRequest.bytes ++ ahead := by
    rw [← split, sent]
    rfl
  obtain ⟨front, rest, shape, read, behind⟩ := List.map_eq_append_iff.mp whole
  obtain rfl : front = n.taken := List.map_injective_iff.mpr bytes_injective read
  refine ⟨⟨packet, stamped.size⟩, requests, rest, shape.symm, by rw [behind, flight], connect, reads, ?_⟩
  exact fun fd link => ((linked_of_run run).heard i n fd known link).2

end

/-- The one who types over the network. -/
def userA : UserId := ⟨ascii "A", by decide, by decide⟩

/-- The command `subscribe a 1`. -/
def storedA : UserCommand :=
  .subscribe ⟨⟨ascii "a", by decide, by decide⟩, by decide⟩ (some ⟨ascii "1", by decide, by decide⟩)

theorem sends_storedA : Sends userA (ascii "subscribe a 1\n") :=
  .inl ⟨storedA, by decide, by decide⟩

theorem commands_arrive_subscribed : ∃ past net n, (networkSystem noReals 3 4).Run past net ∧
    net.nodes 0 = some n ∧ n.taken.length = 2 ∧ ∃ connect requests ahead,
      n.taken ++ ahead = connect :: requests ∧ connect.type = .message ∧
        List.Forall₂ (Reads userA) [ascii "subscribe a 1\n"] requests := by
  obtain ⟨past, net, n, run, known, seen⟩ := exists_served
    (fun past n => n.taken.length = 2 ∧ n.process.id = ascii "A" ∧ keyed past 0 = [ascii "subscribe a 1\n"])
    (by decide)
  obtain ⟨two, named, lines⟩ := of_decide_eq_true seen
  have sends : ∀ line ∈ keyed past 0, Sends userA line := by
    rw [lines]
    rintro line (_ | ⟨_, ⟨⟩⟩)
    exact sends_storedA
  obtain ⟨connect, requests, ahead, split, -, type, reads, -⟩ := commands_arrive run known named sends
  rw [lines] at reads
  exact ⟨past, net, n, run, known, two, connect, requests, ahead, split, type, reads⟩

end PubSub.Properties
