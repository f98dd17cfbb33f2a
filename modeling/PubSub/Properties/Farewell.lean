import PubSub.Properties.EndToEnd
import PubSub.Properties.Exit
import PubSub.Properties.Shutdown

/-!
# What the exit of the server means to its subscribers

No subscriber understands the notice. Each of them reads what has been written in front of
it all the same, and leaves when it finds the connection closed.
-/
namespace PubSub.Properties

open General Std

/-! ## The notice as the end of a stream -/

/-- A message that begins with `SERV` would be far longer than what is there. -/
theorem mute_notice : Mute shutdownNotice := by
  intro v front
  have size : shutdownNotice.length = 68 := by decide
  have short := front.length_le
  obtain ⟨rest, split⟩ := front
  constructor
  · intro head
    cases pending : v.pending with
    | nil =>
      rw [pending] at head
      cases head
    | cons byte bytes =>
      rw [pending, List.head?_cons, Option.some.injEq] at head
      have start : shutdownNotice.head? = some 83 := by decide
      have first := congrArg List.head? split
      rw [pending, head, start] at first
      exact absurd (Option.some.inj first) (by decide)
  · rw [View.message]
    split
    · rfl
    · rw [if_neg Bool.false_ne_true, View.data]
      split
      next prefixed =>
        have value : View.prefixValue v.pending = 1448232275 := by
          rw [← prefixValue_notice, View.prefixValue, View.prefixValue, ← split,
            List.take_append_of_le_length prefixed]
        rw [value, View.text, if_neg (by omega), if_neg (by dsimp only; rw [List.length_drop]; omega)]
        rfl
      · rfl

theorem Mute.front {tail bytes : Bytes} (mute : Mute tail) (front : bytes <+: tail) : Mute bytes :=
  fun v ahead => mute v (ahead.trans front)

/-- What the notices are to one connection. -/
theorem notices_bytes (w : World) (fd : Fd) : (notices w).flatMap (Effect.bytesOn fd) =
    (w.state.clients.keys.filter fun id => session w id = some (fd, true)).flatMap
      fun _ => shutdownNotice := by
  rw [notices]
  induction w.state.clients.keys with
  | nil => rfl
  | cons id ids ih =>
    rw [List.filterMap_cons, List.filter_cons]
    cases known : session w id with
    | none => simpa using ih
    | some s =>
      obtain ⟨other, connected⟩ := s
      cases connected with
      | false => simpa using ih
      | true =>
        by_cases here : other = fd
        · simpa [here, Effect.bytesOn] using ih
        · simpa [here, Effect.bytesOn] using ih

/-- A connection gets one notice if it has a session, and none otherwise. -/
theorem notices_front {trace : History} {w : World} (sessions : Sessions trace w) (fd : Fd) :
    (notices w).flatMap (Effect.bytesOn fd) <+: shutdownNotice := by
  rw [notices_bytes]
  have distinct : (w.state.clients.keys.filter fun id => session w id = some (fd, true)).Nodup :=
    TreeMap.nodup_keys.filter _
  have owner : ∀ id ∈ w.state.clients.keys.filter fun id => session w id = some (fd, true),
      linked trace fd = some id := by
    intro id member
    have live := of_decide_eq_true (List.mem_filter.mp member).2
    exact ((sessions.paired fd id).mp live).2
  revert distinct owner
  cases w.state.clients.keys.filter fun id => session w id = some (fd, true) with
  | nil =>
    intro _ _
    exact List.nil_prefix
  | cons id ids =>
    intro distinct owner
    rw [List.forall_mem_cons] at owner
    cases ids with
    | nil => simp
    | cons other ids =>
      have same := owner.2 other List.mem_cons_self
      rw [owner.1, Option.some.injEq] at same
      rw [same] at distinct
      simp at distinct

/-! ## The way out of the loop -/

/-- A step of a subscriber, or something that happens to it. -/
def NodeStep (rt : RealText) (n n' : Node) : Prop := ∃ e, n.Ready rt e ∧ n.step rt e = some n'

/-- The bodies a subscriber has not parsed yet, and the end of the connection behind them. -/
def callsDue (n : Node) : Nat :=
  if n.process.phase = .left then 0 else n.posted.length - n.process.parsed.length + 1

theorem callsDue_le (n : Node) : callsDue n ≤ n.posted.length - n.process.parsed.length + 1 := by
  rw [callsDue]
  split
  · exact Nat.zero_le _
  · exact Nat.le_refl _

theorem settle_left {p : Process} (left : p.settle.phase = .left) : p.status ≠ .running := by
  intro running
  rw [Process.settle, if_pos running] at left
  cases left

theorem next_left {p : Process} {socketReady : Bool} (left : (p.next socketReady).phase = .left) :
    p.status ≠ .running := by
  cases socketReady with
  | true => cases left
  | false => exact settle_left left

section

variable {rt : RealText} {n n' : Node} {ahead : List Bytes} {tail : Bytes}

/-- Standard input has no part in what is read from the connection. -/
theorem input_next {line : Option Bytes} (moved : n.step rt (.input line) = some n') :
    ∃ (p : Process) (socketReady : Bool), n.process.phase = .atInput socketReady ∧
      n'.process = p.next socketReady ∧ p.parsed = n.process.parsed := by
  simp only [Node.step] at moved
  split at moved
  next socketReady phase =>
    cases line with
    | none =>
      cases moved
      exact ⟨_, socketReady, phase, rfl, rfl⟩
    | some line =>
      simp only [Node.input, Option.bind_eq_bind, Option.bind_eq_some_iff] at moved
      obtain ⟨result, -, moved⟩ := moved
      cases moved
      exact ⟨_, socketReady, phase, rfl, Process.obey_parsed _ _⟩
  · cases moved
  · cases moved
  · cases moved

/-- Behind a closed connection a call parses the next body, or ends the loop. -/
theorem message_cases (rt : RealText) (arrivals : Nat → Option Nat) (mute : Mute tail)
    (front : n.down <+: frames ahead ++ tail) (shut : n.link = .shut)
    (sized : ∀ body ∈ ahead, 6 ≤ body.length ∧ body.length < 2 ^ 31) (plain : ∀ body ∈ ahead, Plain body) :
    ((n.message rt arrivals).process.status = .stopped ∧
      (n.message rt arrivals).process.parsed = n.process.parsed ∧
        (n.down = frames ahead ++ tail → ahead = [])) ∨
      ∃ body rest, ahead = body :: rest ∧
        (n.message rt arrivals).process.status = n.process.status ∧
          (n.message rt arrivals).process.parsed = n.process.parsed ++ [body] ∧
            (n.message rt arrivals).down = n.down.drop (4 + body.length) ∧
              (frames ahead ++ tail).drop (4 + body.length) = frames rest ++ tail := by
  by_cases short : ∀ body ∈ ahead.head?, n.down.length < 4 + body.length
  · obtain ⟨parsed, status, -⟩ := message_ends rt arrivals mute
      (fun body member => (sized body member).2) plain front short
    rw [if_pos shut] at status
    refine .inl ⟨status, parsed, ?_⟩
    intro whole
    cases ahead with
    | nil => rfl
    | cons body rest =>
      -- The body would be there.
      have missing := short body rfl
      rw [whole, frames_cons, List.length_append, List.length_append, framed_length] at missing
      omega
  · cases ahead with
    | nil => simp at short
    | cons body rest =>
      have complete : 4 + body.length ≤ n.down.length := by simpa using short
      rw [List.forall_mem_cons] at sized plain
      rw [frames_cons, List.append_assoc] at front ⊢
      obtain ⟨parsed, status, down⟩ := message_reads rt arrivals sized.1 plain.1 front complete
      exact .inr ⟨body, rest, rfl, status, parsed, down, List.drop_left' (framed_length body)⟩

/-- The call that ends the loop. -/
theorem message_leaves {arrivals : Nat → Option Nat} (phase : n.process.phase = .atSocket)
    (status : (n.message rt arrivals).process.status = .stopped) :
    OwnRun rt 1 n (n.message rt arrivals) ∧ (n.message rt arrivals).process.phase = .left := by
  constructor
  · exact .step (.message arrivals) trivial ⟨phase, (alive_ne (.inr status)).1⟩ rfl .refl
  · rw [message_looping, status]
    rfl

/-- The sweeps from here read what has come, and then the subscriber leaves. -/
theorem leaves_socket (rt : RealText) (mute : Mute tail) (split : n.posted = n.process.parsed ++ ahead)
    (front : n.down <+: frames ahead ++ tail) (shut : n.link = .shut) (phase : n.process.phase = .atSocket)
    (alive : n.process.status = .running ∨ n.process.status = .stopped)
    (sized : ∀ body ∈ ahead, 6 ≤ body.length ∧ body.length < 2 ^ 31) (plain : ∀ body ∈ ahead, Plain body) :
    ∃ calls last, OwnRun rt calls n last ∧ last.process.phase = .left ∧ last.process.status = .stopped ∧
      (n.process.status = .running → n.down = frames ahead ++ tail → last.process.parsed = n.posted) := by
  induction ahead generalizing n with
  | nil =>
    rcases message_cases rt (fun _ => none) mute front shut sized plain with
      ⟨status, parsed, -⟩ | ⟨body, rest, impossible, -⟩
    · obtain ⟨moves, left⟩ := message_leaves phase status
      exact ⟨1, _, moves, left, status, fun _ _ => by rw [parsed, split, List.append_nil]⟩
    · cases impossible
  | cons body rest ih =>
    rcases message_cases rt (fun _ => none) mute front shut sized plain with
      ⟨status, -, nothing⟩ | ⟨_, _, here, status, parsed, down, behind⟩
    · obtain ⟨moves, left⟩ := message_leaves phase status
      exact ⟨1, _, moves, left, status, fun _ whole => absurd (nothing whole) (List.cons_ne_nil _ _)⟩
    · cases here
      rcases alive with running | stopped
      · rw [running] at status
        -- The next sweep finds the socket readable, as it is closed.
        obtain ⟨calls, last, moves, left, ended, all⟩ := ih
          (n := { n.message rt (fun _ => none) with
            process := (n.message rt fun _ => none).process.poll false true })
          (by rw [Process.poll_parsed, parsed, List.append_assoc]; exact split)
          (by rw [← behind, down]; exact front.drop _) shut rfl (.inl status)
          (fun other member => sized other (List.mem_cons_of_mem _ member))
          fun other member => plain other (List.mem_cons_of_mem _ member)
        have again : (n.message rt fun _ => none).process.phase = .atPoll := by
          rw [message_looping, if_pos status]
        refine ⟨_, last, .step (.message fun _ => none) trivial ⟨phase, (alive_ne (.inl status)).1⟩ rfl
          (.step (.poll false true) trivial ⟨again, fun _ => .inr shut⟩ rfl moves), left, ended, ?_⟩
        intro _ whole
        refine all status ?_
        rw [← behind, ← whole, down]
      · rw [stopped] at status ⊢
        obtain ⟨moves, left⟩ := message_leaves phase status
        exact ⟨1, _, moves, left, status, fun running => by cases running⟩

/-- So do those behind the next `poll`. -/
theorem leaves_poll (rt : RealText) (mute : Mute tail) (split : n.posted = n.process.parsed ++ ahead)
    (front : n.down <+: frames ahead ++ tail) (shut : n.link = .shut) (phase : n.process.phase = .atPoll)
    (running : n.process.status = .running)
    (sized : ∀ body ∈ ahead, 6 ≤ body.length ∧ body.length < 2 ^ 31) (plain : ∀ body ∈ ahead, Plain body) :
    ∃ calls last, OwnRun rt calls n last ∧ last.process.phase = .left ∧ last.process.status = .stopped ∧
      (n.down = frames ahead ++ tail → last.process.parsed = n.posted) := by
  obtain ⟨calls, last, moves, left, stopped, all⟩ := leaves_socket rt
    (n := { n with process := n.process.poll false true }) mute split front shut rfl (.inl running) sized
    plain
  exact ⟨_, last, .step (.poll false true) trivial ⟨phase, fun _ => .inr shut⟩ rfl moves, left, stopped,
    all running⟩

/-- From wherever it is in its loop, a subscriber can leave it. -/
theorem leaves_from (rt : RealText) (mute : Mute tail) (split : n.posted = n.process.parsed ++ ahead)
    (front : n.down <+: frames ahead ++ tail) (shut : n.link = .shut) (inside : n.process.phase ≠ .left)
    (alive : n.process.status = .running ∨ n.process.status = .stopped)
    (looping : n.process.phase = .atPoll → n.process.status = .running)
    (sized : ∀ body ∈ ahead, 6 ≤ body.length ∧ body.length < 2 ^ 31) (plain : ∀ body ∈ ahead, Plain body) :
    ∃ calls last, OwnRun rt calls n last ∧ last.process.phase = .left ∧ last.process.status = .stopped ∧
      (n.process.status = .running → n.down = frames ahead ++ tail → last.process.parsed = n.posted) := by
  cases phase : n.process.phase with
  | atPoll =>
    obtain ⟨calls, last, moves, left, stopped, all⟩ :=
      leaves_poll rt mute split front shut phase (looping phase) sized plain
    exact ⟨calls, last, moves, left, stopped, fun _ => all⟩
  | atInput socketReady =>
    -- The end of standard input is as good as any line.
    have ended : n.step rt (.input none) = some { n with process := n.process.next socketReady } := by
      simp only [Node.step, phase]
      rfl
    have ready : n.Ready rt (.input none) := by
      cases socketReady with
      | true => exact .inl phase
      | false => exact .inr phase
    cases socketReady with
    | true =>
      obtain ⟨calls, last, moves, done⟩ := leaves_socket rt
        (n := { n with process := n.process.next true }) mute split front shut rfl alive sized plain
      exact ⟨_, last, .step (.input none) trivial ready ended moves, done⟩
    | false =>
      rcases alive with running | stopped
      · have again : (n.process.next false).phase = .atPoll := if_pos running
        obtain ⟨calls, last, moves, left, stopped, all⟩ := leaves_poll rt
          (n := { n with process := n.process.next false }) mute split front shut again running sized plain
        exact ⟨_, last, .step (.input none) trivial ready ended moves, left, stopped, fun _ => all⟩
      · have done : (n.process.next false).phase = .left := by
          rw [Process.next, if_neg Bool.false_ne_true, Process.settle, stopped]
          rfl
        refine ⟨_, _, .step (.input none) trivial ready ended .refl, done, stopped, ?_⟩
        rw [stopped]
        intro running
        cases running
  | atSocket => exact leaves_socket rt mute split front shut phase alive sized plain
  | left => exact absurd phase inside

theorem Downstream.node_step (downstream : Downstream tail n) (mute : Mute tail) (shut : n.link = .shut)
    (sized : ∀ body ∈ n.posted, 6 ≤ body.length ∧ body.length < 2 ^ 31)
    (plain : ∀ body ∈ n.posted, Plain body) {e : NodeEvent} (ready : n.Ready rt e)
    (moved : n.step rt e = some n') : Downstream tail n' ∧ n'.posted = n.posted ∧ n'.link = .shut := by
  obtain ⟨link, -, written⟩ := step_link moved
  exact ⟨downstream.move mute sized plain ready moved, written, by rw [link, shut]⟩

theorem Downstream.node_steps (downstream : Downstream tail n) (mute : Mute tail) (shut : n.link = .shut)
    (sized : ∀ body ∈ n.posted, 6 ≤ body.length ∧ body.length < 2 ^ 31)
    (plain : ∀ body ∈ n.posted, Plain body) (steps : Relation.ReflTransGen (NodeStep rt) n n') :
    Downstream tail n' ∧ n'.posted = n.posted ∧ n'.link = .shut := by
  induction steps with
  | refl => exact ⟨downstream, rfl, shut⟩
  | tail steps step ih =>
    obtain ⟨e, ready, moved⟩ := step
    obtain ⟨before, same, closed⟩ := ih
    rw [← same] at sized plain
    obtain ⟨after, written, closed'⟩ := before.node_step mute closed sized plain ready moved
    exact ⟨after, by rw [written, same], closed'⟩

/-- Behind a closed connection every call counts, and none but the last one leaves. -/
theorem Downstream.own_step (downstream : Downstream tail n) (mute : Mute tail) (shut : n.link = .shut)
    (sized : ∀ body ∈ n.posted, 6 ≤ body.length ∧ body.length < 2 ^ 31)
    (plain : ∀ body ∈ n.posted, Plain body) {e : NodeEvent} (own : e.Own) (ready : n.Ready rt e)
    (moved : n.step rt e = some n') : e.calls + callsDue n' ≤ callsDue n ∧
      (n'.process.phase = .left → n'.process.status ≠ .running) := by
  have inside : n.process.phase ≠ .left → callsDue n = n.posted.length - n.process.parsed.length + 1 :=
    fun phase => if_neg phase
  have most := callsDue_le n'
  cases e with
  | poll input socket =>
    cases moved
    rw [inside (by rw [ready.1]; simp)]
    refine ⟨by simpa [NodeEvent.calls] using most, ?_⟩
    intro left
    cases input <;> cases socket <;> cases left
  | input line =>
    obtain ⟨p, socketReady, phase, next, parsed⟩ := input_next moved
    rw [(step_link moved).2.2, next, Process.next_parsed, parsed] at most
    rw [inside (by rw [phase]; simp), next]
    refine ⟨by simpa [NodeEvent.calls] using most, ?_⟩
    intro left
    rw [Process.next_status]
    exact next_left left
  | message arrivals =>
    cases moved
    refine ⟨?_, settle_left⟩
    obtain ⟨ahead, split, front, -⟩ := downstream.flight
    have member : ∀ body ∈ ahead, body ∈ n.posted := by
      intro body here
      rw [split, List.mem_append]
      exact .inr here
    rw [inside (by rw [ready.1]; simp)]
    rcases message_cases rt arrivals mute front shut (fun body here => sized body (member body here))
        fun body here => plain body (member body here) with
      ⟨status, -⟩ | ⟨body, rest, rfl, -, parsed, -⟩
    · have left : (n.message rt arrivals).process.phase = .left := by
        rw [message_looping, status]
        rfl
      rw [callsDue, if_pos left, NodeEvent.calls]
      omega
    · have total : n.posted.length = n.process.parsed.length + (rest.length + 1) := by
        rw [split, List.length_append, List.length_cons]
      rw [parsed, List.length_append, List.length_singleton,
        show (n.message rt arrivals).posted = n.posted from rfl] at most
      rw [NodeEvent.calls]
      omega
  | quit => exact own.elim
  | cut kept => exact own.elim

theorem Downstream.own_run {calls : Nat} (downstream : Downstream tail n) (mute : Mute tail)
    (shut : n.link = .shut) (sized : ∀ body ∈ n.posted, 6 ≤ body.length ∧ body.length < 2 ^ 31)
    (plain : ∀ body ∈ n.posted, Plain body) (moves : OwnRun rt calls n n') :
    calls + callsDue n' ≤ callsDue n ∧ ((n.process.phase = .left → n.process.status ≠ .running) →
      n'.process.phase = .left → n'.process.status = .stopped) := by
  induction moves with
  | refl =>
    refine ⟨by omega, ?_⟩
    intro stops left
    rcases downstream.alive with running | stopped
    · exact absurd running (stops left)
    · exact stopped
  | step e own ready moved moves ih =>
    obtain ⟨after, same, closed⟩ := downstream.node_step mute shut sized plain ready moved
    obtain ⟨fewer, stops⟩ := downstream.own_step mute shut sized plain own ready moved
    rw [← same] at sized plain
    obtain ⟨later, leaves⟩ := ih after closed sized plain
    exact ⟨by omega, fun _ => leaves stops⟩

/-- What is left to a subscriber whose connection is closed. -/
theorem Downstream.leaving (downstream : Downstream tail n) (mute : Mute tail) (shut : n.link = .shut)
    (sized : ∀ body ∈ n.posted, 6 ≤ body.length ∧ body.length < 2 ^ 31)
    (plain : ∀ body ∈ n.posted, Plain body) (inside : n.process.phase ≠ .left) :
    (∃ calls last, OwnRun rt calls n last ∧ last.process.phase = .left ∧ last.process.status = .stopped) ∧
      ∀ calls last, OwnRun rt calls n last →
        calls ≤ n.posted.length - n.process.parsed.length + 1 ∧
          (calls = n.posted.length - n.process.parsed.length + 1 → last.process.phase = .left) ∧
          (last.process.phase = .left → last.process.status = .stopped) := by
  constructor
  · obtain ⟨ahead, split, front, -⟩ := downstream.flight
    have member : ∀ body ∈ ahead, body ∈ n.posted := by
      intro body here
      rw [split, List.mem_append]
      exact .inr here
    obtain ⟨calls, last, moves, left, stopped, -⟩ := leaves_from rt mute split front shut inside
      downstream.alive downstream.looping (fun body here => sized body (member body here))
      fun body here => plain body (member body here)
    exact ⟨calls, last, moves, left, stopped⟩
  · intro calls last moves
    obtain ⟨bound, leaves⟩ := downstream.own_run mute shut sized plain moves
    rw [callsDue, callsDue, if_neg inside] at bound
    refine ⟨by omega, ?_, leaves fun left => absurd left inside⟩
    intro all
    by_contra left
    rw [if_neg left] at bound
    omega

end

/-! ## The exit of the server -/

section

variable {udpFd tcpListenFd : Fd} {trace : History} {w w' : World} {n : Node}

/-- The exit writes at most one notice to a connection, and closes it. -/
theorem part_exit (shut : ShutDown w w') (polled : Polled udpFd tcpListenFd w) (sessions : Sessions trace w)
    (known : ∀ fd, n.link = .served fd → fd ∈ w.connections) :
    ∃ tail, tail <+: shutdownNotice ∧ (n.link = .shut → tail = []) ∧
      (n.relay w' (w'.output.drop w.output.length)).part w'.openFds =
        { n with down := n.down ++ tail, link := .shut } := by
  rw [shut.output, List.drop_left]
  cases link : n.link with
  | backlog => exact ⟨[], List.nil_prefix, fun _ => rfl, by simp [Node.relay, Node.part, link]⟩
  | shut => exact ⟨[], List.nil_prefix, fun _ => rfl, by simp [Node.relay, Node.part, link]⟩
  | served fd =>
    have closes : ((targets w.pollSet).map Effect.close).flatMap (Effect.bytesOn fd) = [] := by
      simp [List.flatMap_map, Effect.bytesOn]
    have bodies : (notices w ++ (targets w.pollSet).map Effect.close).filterMap (Effect.bodyOn fd) = [] := by
      rw [List.filterMap_eq_nil_iff]
      intro effect member
      rcases notice_or_close w effect member with ⟨other, rfl⟩ | ⟨other, rfl⟩
      · rfl
      · rfl
    -- The descriptor was polled, and is closed.
    have here := known fd link
    have polls : fd ∈ w'.connections := by
      rw [World.connections, shut.pollSet, ← World.connections]
      exact here
    have closed : fd ∉ w'.openFds := by
      rw [shut.open_iff polled.open_polled polled.stdin_open]
      rintro rfl
      exact polled.apart _ here (by simp [fixedFds])
    refine ⟨_, notices_front sessions fd, by simp, ?_⟩
    simp only [Node.relay, link, Node.part, if_pos polls, if_neg closed, List.flatMap_append, closes, bodies,
      List.append_nil]

end

section

variable {rt : RealText} {udpFd tcpListenFd : Fd} {past : NetworkHistory} {net : Network}

/-- The exit in a network, seen from its connections. -/
theorem console_exit (run : (networkSystem rt udpFd tcpListenFd).Run past net)
    (clean : CleanRun (serverTrace rt udpFd tcpListenFd past)) {line : Bytes}
    (command : stringToArgv line = [ascii "exit"]) :
    ∃ net', net.console line = some net' ∧ ∀ i n, net.nodes i = some n → ∃ tail,
      tail <+: shutdownNotice ∧ (n.link = .shut → tail = []) ∧
        net'.nodes i = some { n with down := n.down ++ tail, link := .shut } := by
  have alone := server_run run
  have healthy := healthy_of_run alone
  obtain ⟨w', done, -⟩ := shutdown_total healthy
  have shut := shutdown_spec healthy done
  have sessions := sessions_of_run alone (disciplined_of_run run) clean
  have handled : handleServerCommand line net.server = some (w', true) := by
    simp [handleServerCommand, command, done]
  refine ⟨_, by rw [Network.console, handled]; rfl, ?_⟩
  intro i n known
  obtain ⟨tail, front, already, parted⟩ := part_exit (n := n) shut (polled_of_run alone) sessions
    fun fd link => ((linked_of_run run).heard i n fd known link).1
  exact ⟨tail, front, already, by simp [Network.broadcast, known, parted]⟩

/-- Behind the exit of the server, whatever happens to a connection and to the process behind
it, a subscriber parses nothing but what was written to it. From wherever it is in its loop
it can leave it by steps of its own, and with status `stopped`. It has left at the latest
when it has called `handle_server_message` once more than there were messages to parse.
Where nothing is lost on the way, it can leave with every message there was. -/
theorem exit_releases (run : (networkSystem rt udpFd tcpListenFd).Run past net)
    (clean : CleanRun (serverTrace rt udpFd tcpListenFd past))
    (plain : ∀ body ∈ arrived (serverTrace rt udpFd tcpListenFd past), Plain body) {line : Bytes}
    (command : stringToArgv line = [ascii "exit"]) :
    ∃ net', net.console line = some net' ∧ ∀ i n, net.nodes i = some n → ∃ m, net'.nodes i = some m ∧
      (∀ m', Relation.ReflTransGen (NodeStep rt) m m' →
        m'.process.parsed <+: n.posted ∧ m'.process.status ≠ .aborted ∧
          (m'.process.phase ≠ .left →
            (∃ calls last, OwnRun rt calls m' last ∧ last.process.phase = .left ∧
              last.process.status = .stopped) ∧
            ∀ calls last, OwnRun rt calls m' last →
              calls ≤ n.posted.length - m'.process.parsed.length + 1 ∧
                (calls = n.posted.length - m'.process.parsed.length + 1 → last.process.phase = .left) ∧
                (last.process.phase = .left → last.process.status = .stopped))) ∧
      (n.link ≠ .shut → n.process.phase ≠ .left → n.process.status = .running →
        ∃ calls last, OwnRun rt calls m last ∧ last.process.phase = .left ∧
          last.process.status = .stopped ∧ last.process.parsed = n.posted) := by
  obtain ⟨net', console, parted⟩ := console_exit run clean command
  refine ⟨net', console, ?_⟩
  intro i n known
  obtain ⟨tail, front, already, here⟩ := parted i n known
  obtain ⟨posted, reads⟩ := reception_of_run run known
  have downstream := reads plain
  obtain ⟨ahead, split, flight, whole⟩ := downstream.flight
  rw [List.append_nil] at flight whole
  have mute := mute_notice.front front
  have sized : ∀ body ∈ n.posted, 6 ≤ body.length ∧ body.length < 2 ^ 31 :=
    fun body member => arrived_length (posted body member)
  have apart : ∀ body ∈ n.posted, Plain body := fun body member => plain body (posted body member)
  have ending : n.down ++ tail <+: frames ahead ++ tail := by
    by_cases shut : n.link = .shut
    · rw [already shut, List.append_nil, List.append_nil]
      exact flight
    · rw [whole shut]
  refine ⟨_, here, ?_, ?_⟩
  · intro m' steps
    have behind : Downstream tail { n with down := n.down ++ tail, link := .shut } :=
      ⟨downstream.alive, downstream.looping, ahead, split, ending, fun opened => absurd rfl opened⟩
    obtain ⟨later, same, shut⟩ := behind.node_steps mute rfl sized apart steps
    replace same : m'.posted = n.posted := same
    obtain ⟨rest, split', -⟩ := later.flight
    rw [← same] at sized apart ⊢
    refine ⟨?_, (alive_ne later.alive).2, later.leaving mute shut sized apart⟩
    rw [split']
    exact List.prefix_append _ _
  · intro opened inside running
    have member : ∀ body ∈ ahead, body ∈ n.posted := by
      intro body here
      rw [split, List.mem_append]
      exact .inr here
    obtain ⟨calls, last, moves, left, stopped, all⟩ := leaves_from rt mute
      (n := { n with down := n.down ++ tail, link := .shut }) split ending rfl inside downstream.alive
      downstream.looping (fun body here => sized body (member body here))
      fun body here => apart body (member body here)
    exact ⟨calls, last, moves, left, stopped, all running (by rw [whole opened])⟩

theorem exit_releases_subscribed : ∃ past net n net' m calls last,
    (networkSystem noReals 3 4).Run past net ∧ net.nodes 0 = some n ∧ n.posted.length = 1 ∧
      net.console (ascii "exit\n") = some net' ∧ net'.nodes 0 = some m ∧ OwnRun noReals calls m last ∧
        last.process.phase = .left ∧ last.process.status = .stopped ∧ last.process.parsed = n.posted := by
  obtain ⟨past, net, n, run, known, seen⟩ := exists_served
    (fun past n => n.posted.length = 1 ∧ n.process.phase = .atPoll ∧ n.process.status = .running ∧
      n.link ≠ .shut ∧ CleanRun (serverTrace noReals 3 4 past) ∧
      ∀ body ∈ arrived (serverTrace noReals 3 4 past), Plain body) (by decide)
  obtain ⟨one, phase, running, opened, clean, plain⟩ := of_decide_eq_true seen
  obtain ⟨net', console, each⟩ := exit_releases run clean plain (show stringToArgv (ascii "exit\n") = _ by decide)
  obtain ⟨m, here, -, drained⟩ := each 0 n known
  obtain ⟨calls, last, moves, ended⟩ := drained opened (by rw [phase]; simp) running
  exact ⟨past, net, n, net', m, calls, last, run, known, one, console, here, moves, ended⟩

end

end PubSub.Properties
