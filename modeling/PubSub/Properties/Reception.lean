import PubSub.Properties.Peers
import PubSub.Properties.Segmentation

/-!
# From the server to the subscribers

The length in front of a body is mistaken for a control message only if its low byte is
that of 68. Where no body has such a length, every subscriber reads the bodies that were
written to its connection, however they arrive and whenever it comes to read them.
-/
namespace PubSub.Properties

open General

/-- What the server writes for a body. -/
def framed (body : Bytes) : Bytes := wire body.length body

def frames (bodies : List Bytes) : Bytes := bodies.flatMap framed

/-- A body that no peek takes for a control message. -/
def Plain (body : Bytes) : Prop := body.length % 256 ≠ 68

instance : DecidablePred Plain := fun body => inferInstanceAs (Decidable (body.length % 256 ≠ 68))

theorem framed_eq (body : Bytes) : framed body = int32Bytes body.length ++ body := by
  rw [framed, wire, Int.toNat_natCast, List.take_of_length_le (Nat.le_refl _)]

@[simp] theorem frames_nil : frames [] = [] := rfl

theorem framed_length (body : Bytes) : (framed body).length = 4 + body.length := by
  rw [framed_eq, List.length_append, int32Bytes_length]

theorem frames_cons (body : Bytes) (bodies : List Bytes) :
    frames (body :: bodies) = framed body ++ frames bodies := List.flatMap_cons

theorem frames_append (first second : List Bytes) :
    frames (first ++ second) = frames first ++ frames second := List.flatMap_append

/-- The bodies of datagrams have an address in front, and fit into the receive buffer. -/
theorem arrived_length {trace : History} {body : Bytes} (here : body ∈ arrived trace) :
    6 ≤ body.length ∧ body.length < 2 ^ 31 := by
  obtain ⟨x, -, found⟩ := List.mem_filterMap.mp here
  split at found
  next d stale message event =>
    cases found
    have fits : d.payload.length ≤ 2999 := d.fits
    rw [d.body_length]
    omega
  · cases found

/-! ## One message -/

section

variable {v : View} {body behind : Bytes}

/-- A front of a frame and what is behind it, as long as it is not empty, does not begin like
a control message. -/
theorem head_of_frame (plain : Plain body) (front : v.pending <+: framed body ++ behind) :
    v.pending.head? ≠ some 68 := by
  obtain ⟨rest, split⟩ := front
  intro head
  cases pending : v.pending with
  | nil =>
    rw [pending] at head
    cases head
  | cons byte bytes =>
    rw [pending, List.head?_cons, Option.some.injEq] at head
    rw [pending, framed_eq, head, int32Bytes, leBytes, List.cons_append, List.cons_append,
      List.cons_append, List.cons.injEq] at split
    have low := congrArg UInt8.toNat split.1
    rw [UInt8.toNat_ofNat'] at low
    have number : ((body.length : Int) % 2 ^ 32).toNat % 2 ^ 8 = body.length % 256 := by omega
    rw [number] at low
    exact plain low.symm

/-- The length of the next body, once it is there. -/
theorem prefixValue_front (small : body.length < 2 ^ 31) (front : v.pending <+: framed body ++ behind)
    (prefixed : 4 ≤ v.pending.length) : View.prefixValue v.pending = body.length := by
  obtain ⟨rest, split⟩ := front
  have four : v.pending.take 4 = int32Bytes body.length := by
    have whole := congrArg (List.take 4) split
    rw [List.take_append_of_le_length prefixed, framed_eq, List.append_assoc,
      List.take_left' (int32Bytes_length _)] at whole
    exact whole
  rw [View.prefixValue, four, leValue_int32Bytes _ small, toInt32_small _ small]

theorem message_next_frame (size : 6 ≤ body.length ∧ body.length < 2 ^ 31)
    (front : v.pending <+: framed body ++ behind) (complete : 4 + body.length ≤ v.pending.length) :
    v.message false =
      { v with pending := v.pending.drop (4 + body.length), parsed := v.parsed ++ [body] } := by
  have nonempty : v.pending ≠ [] := List.ne_nil_of_length_pos (by omega)
  have value := prefixValue_front size.2 front (by omega)
  have text : (v.pending.drop 4).take body.length = body := by
    obtain ⟨rest, split⟩ := front
    have whole := congrArg (fun bytes => (bytes.drop 4).take body.length) split
    rw [List.drop_append_of_le_length (by omega), List.take_append_of_le_length (by rw [List.length_drop]; omega),
      framed_eq, List.append_assoc, List.drop_left' (int32Bytes_length _), List.take_left] at whole
    exact whole
  have filled : body ≠ [] := List.ne_nil_of_length_pos (by omega)
  rw [View.message, if_neg nonempty, if_neg Bool.false_ne_true, View.data, if_pos (by omega)]
  simp only [value, View.text, Int.toNat_natCast, text, filled, if_false, View.parse, if_pos size.1,
    List.drop_drop]
  rw [if_neg (by omega), if_pos (by rw [List.length_drop]; omega)]

/-- A connection that ends within a frame. -/
theorem message_cut_frame (small : body.length < 2 ^ 31) (front : v.pending <+: framed body ++ behind)
    (short : v.pending.length < 4 + body.length) : v.message false = v.cutOff := by
  rw [View.message]
  split
  · rfl
  · rw [if_neg Bool.false_ne_true, View.data]
    split
    next prefixed =>
      rw [View.text, prefixValue_front small front prefixed, if_neg (by omega), Int.toNat_natCast,
        if_neg (by rw [List.length_drop]; omega)]
      rfl
    · rfl

end

/-- Bytes that no message can be read from, however far they have come. -/
def Mute (tail : Bytes) : Prop :=
  ∀ v : View, v.pending <+: tail → v.pending.head? ≠ some 68 ∧ v.message false = v.cutOff

theorem mute_nil : Mute [] := by
  intro v front
  have empty := List.prefix_nil.mp front
  rw [View.message, if_pos empty, empty]
  exact ⟨by simp, rfl⟩

/-! ## The connection -/

/-- What was posted and has not been parsed is on its way, all of it as long as the
connection is open, and behind it there may be more. -/
structure Downstream (tail : Bytes) (n : Node) : Prop where
  alive : n.process.status = .running ∨ n.process.status = .stopped
  looping : n.process.phase = .atPoll → n.process.status = .running
  flight : ∃ ahead, n.posted = n.process.parsed ++ ahead ∧ n.down <+: frames ahead ++ tail ∧
    (n.link ≠ .shut → n.down = frames ahead ++ tail)

section

variable {rt : RealText} {n n' : Node} {tail : Bytes}

/-- A subscriber that is running or has stopped neither waits nor has crashed. -/
theorem alive_ne {s : Status} (alive : s = .running ∨ s = .stopped) : s ≠ .waiting ∧ s ≠ .aborted := by
  rcases alive with rfl | rfl
  · decide
  · decide

/-- A step that neither reads nor writes. -/
theorem Downstream.quiet (downstream : Downstream tail n)
    (alive : n'.process.status = .running ∨ n'.process.status = .stopped)
    (looping : n'.process.phase = .atPoll → n'.process.status = .running)
    (parsed : n'.process.parsed = n.process.parsed) (posted : n'.posted = n.posted)
    (down : n'.down = n.down) (opened : n'.link ≠ .shut → n.link ≠ .shut) : Downstream tail n' := by
  obtain ⟨ahead, split, front, whole⟩ := downstream.flight
  refine ⟨alive, looping, ahead, ?_, ?_, ?_⟩
  · rw [posted, parsed, split]
  · rw [down]
    exact front
  · intro link
    rw [down]
    exact whole (opened link)

theorem settle_looping (p : Process) : p.settle.phase = .atPoll → p.settle.status = .running := by
  simp only [Process.settle]
  split
  next running => exact fun _ => running
  · intro phase
    cases phase

theorem next_looping (p : Process) (socketReady : Bool) :
    (p.next socketReady).phase = .atPoll → (p.next socketReady).status = .running := by
  cases socketReady with
  | true =>
    intro phase
    cases phase
  | false => exact settle_looping p

/-- The call of `handle_server_message` that a subscriber makes, seen without the network. -/
theorem message_view (rt : RealText) (n : Node) (arrivals : Nat → Option Nat) :
    ∃ c : Subscriber, n.message rt arrivals =
        { n with process := (n.process.heed rt c).settle, down := c.sock.pending } ∧
      viewOf c = View.message (looksControl (n.incoming arrivals))
        ⟨n.down, decide (n.link = .shut), n.process.parsed, n.process.status⟩ :=
  ⟨_, rfl, (handleServerMessage_view rt (n.process.reader (n.incoming arrivals))).1⟩

theorem frame_peek {body behind : Bytes} (plain : Plain body) (front : n.down <+: framed body ++ behind)
    (arrivals : Nat → Option Nat) : looksControl (n.incoming arrivals) = false := by
  cases looks : looksControl (n.incoming arrivals) with
  | false => rfl
  | true =>
    have head := head_of_looksControl _ looks
    exact absurd head (head_of_frame (v := ⟨n.down, false, [], .running⟩) plain front)

/-- The next frame is there, and its body is parsed. -/
theorem message_reads (rt : RealText) (arrivals : Nat → Option Nat) {body behind : Bytes}
    (size : 6 ≤ body.length ∧ body.length < 2 ^ 31) (plain : Plain body)
    (front : n.down <+: framed body ++ behind) (complete : 4 + body.length ≤ n.down.length) :
    (n.message rt arrivals).process.parsed = n.process.parsed ++ [body] ∧
      (n.message rt arrivals).process.status = n.process.status ∧
      (n.message rt arrivals).down = n.down.drop (4 + body.length) := by
  obtain ⟨c, read, view⟩ := message_view rt n arrivals
  rw [frame_peek plain front, message_next_frame size front complete] at view
  rw [read]
  exact ⟨congrArg View.parsed view, congrArg View.status view, congrArg View.pending view⟩

/-- The stream ends in front of a frame, within it or behind all of them. -/
theorem message_ends (rt : RealText) (arrivals : Nat → Option Nat) {ahead : List Bytes} (mute : Mute tail)
    (sized : ∀ body ∈ ahead, body.length < 2 ^ 31) (plain : ∀ body ∈ ahead, Plain body)
    (front : n.down <+: frames ahead ++ tail)
    (short : ∀ body ∈ ahead.head?, n.down.length < 4 + body.length) :
    (n.message rt arrivals).process.parsed = n.process.parsed ∧
      (n.message rt arrivals).process.status = (if n.link = .shut then .stopped else .waiting) ∧
      (n.message rt arrivals).down = [] := by
  obtain ⟨c, read, view⟩ := message_view rt n arrivals
  have cut : viewOf c =
      View.cutOff ⟨n.down, decide (n.link = .shut), n.process.parsed, n.process.status⟩ := by
    cases ahead with
    | nil =>
      obtain ⟨head, message⟩ :=
        mute ⟨n.down, decide (n.link = .shut), n.process.parsed, n.process.status⟩ front
      have looks : looksControl (n.incoming arrivals) = false := by
        by_contra looks
        exact head (head_of_looksControl _ (Bool.not_eq_false _ ▸ looks))
      rw [view, looks, message]
    | cons body rest =>
      rw [frames_cons, List.append_assoc] at front
      rw [view, frame_peek (plain body List.mem_cons_self) front]
      exact message_cut_frame (sized body List.mem_cons_self) front (short body rfl)
  rw [read]
  refine ⟨congrArg View.parsed cut, ?_, congrArg View.pending cut⟩
  have state : c.status = if decide (n.link = .shut) = true then .stopped else .waiting :=
    congrArg View.status cut
  simpa using state

theorem message_keeps (rt : RealText) (n : Node) (arrivals : Nat → Option Nat) :
    (n.message rt arrivals).link = n.link ∧ (n.message rt arrivals).posted = n.posted := ⟨rfl, rfl⟩

theorem message_looping (rt : RealText) (n : Node) (arrivals : Nat → Option Nat) :
    (n.message rt arrivals).process.phase =
      if (n.message rt arrivals).process.status = .running then .atPoll else .left := rfl

/-- The subscriber reads the next body, or finds the connection at its end. -/
theorem Downstream.read (downstream : Downstream tail n) (mute : Mute tail) (arrivals : Nat → Option Nat)
    (sized : ∀ body ∈ n.posted, 6 ≤ body.length ∧ body.length < 2 ^ 31)
    (plain : ∀ body ∈ n.posted, Plain body)
    (got : (n.message rt arrivals).process.status ≠ .waiting) :
    Downstream tail (n.message rt arrivals) := by
  obtain ⟨ahead, split, front, whole⟩ := downstream.flight
  have posted : ∀ body ∈ ahead, body ∈ n.posted := by
    intro body member
    rw [split, List.mem_append]
    exact .inr member
  obtain ⟨link, same⟩ := message_keeps rt n arrivals
  by_cases short : ∀ body ∈ ahead.head?, n.down.length < 4 + body.length
  · obtain ⟨parsed, status, down⟩ := message_ends rt arrivals mute
      (fun body member => (sized body (posted body member)).2)
      (fun body member => plain body (posted body member)) front short
    -- A call that has returned has found the connection closed.
    have shut : n.link = .shut := by
      by_contra opened
      rw [if_neg opened] at status
      exact got status
    rw [if_pos shut] at status
    refine ⟨.inr status, settle_looping _, ahead, ?_, ?_, ?_⟩
    · rw [same, parsed, split]
    · rw [down]
      exact List.nil_prefix
    · intro opened
      rw [link] at opened
      exact absurd shut opened
  · cases ahead with
    | nil => simp at short
    | cons body rest =>
      have complete : 4 + body.length ≤ n.down.length := by simpa using short
      have member := posted body List.mem_cons_self
      rw [frames_cons, List.append_assoc] at front whole
      obtain ⟨parsed, status, down⟩ :=
        message_reads rt arrivals (sized body member) (plain body member) front complete
      have behind : (framed body ++ (frames rest ++ tail)).drop (4 + body.length) = frames rest ++ tail :=
        List.drop_left' (framed_length body)
      refine ⟨?_, settle_looping _, rest, ?_, ?_, ?_⟩
      · rw [status]
        exact downstream.alive
      · rw [same, parsed, split, List.append_assoc, List.singleton_append]
      · rw [down, ← behind]
        exact front.drop _
      · intro opened
        rw [down, whole (link ▸ opened), behind]

theorem Downstream.launch {id : Bytes} {p : Process} (launched : Process.launch id = some p) :
    Downstream [] (.start p) := by
  simp only [Process.launch, Option.bind_eq_bind, Option.bind_eq_some_iff] at launched
  obtain ⟨packet, -, launched⟩ := launched
  cases launched
  exact ⟨.inl rfl, fun _ => rfl, [], rfl, List.prefix_rfl, fun _ => rfl⟩

theorem Downstream.move {e : NodeEvent} (downstream : Downstream tail n) (mute : Mute tail)
    (sized : ∀ body ∈ n.posted, 6 ≤ body.length ∧ body.length < 2 ^ 31)
    (plain : ∀ body ∈ n.posted, Plain body) (ready : n.Ready rt e) (moved : n.step rt e = some n') :
    Downstream tail n' := by
  cases e with
  | poll input socket =>
    cases moved
    exact downstream.quiet downstream.alive (fun _ => downstream.looping ready.1) rfl rfl rfl id
  | input line =>
    simp only [Node.step] at moved
    split at moved
    next socketReady phase =>
      cases line with
      | none =>
        cases moved
        exact downstream.quiet (by simpa using downstream.alive) (next_looping _ _) (by simp) rfl rfl id
      | some line =>
        simp only [Node.input, Option.bind_eq_bind, Option.bind_eq_some_iff] at moved
        obtain ⟨result, -, moved⟩ := moved
        cases moved
        refine downstream.quiet ?_ (next_looping _ _) (by simp) rfl rfl id
        -- A command may end the loop, and nothing else.
        rw [Process.next_status, Process.obey]
        dsimp only
        split
        · exact .inr rfl
        · exact downstream.alive
    · cases moved
    · cases moved
    · cases moved
  | message arrivals =>
    cases moved
    exact downstream.read mute arrivals sized plain ready.2
  | quit =>
    cases moved
    refine downstream.quiet downstream.alive ?_ rfl rfl rfl id
    intro phase
    cases phase
  | cut kept =>
    cases moved
    obtain ⟨ahead, split, front, -⟩ := downstream.flight
    exact ⟨downstream.alive, downstream.looping, ahead, split, (List.take_prefix kept _).trans front,
      fun opened => absurd ready opened⟩

/-- What a step of the server writes to a descriptor are the frames of the bodies. -/
theorem frames_written (fd : Fd) (more : List Effect)
    (sized : ∀ id fd len buff, .deliver id fd len buff ∈ more → len = (buff.length : Int))
    (quiet : ∀ fd record, .sendNotice fd record ∉ more) :
    more.flatMap (Effect.bytesOn fd) = frames (more.filterMap (Effect.bodyOn fd)) := by
  induction more with
  | nil => rfl
  | cons effect more ih =>
    have rest := ih (fun id fd len buff member => sized id fd len buff (List.mem_cons_of_mem _ member))
      (fun fd record member => quiet fd record (List.mem_cons_of_mem _ member))
    rw [List.flatMap_cons, rest, List.filterMap_cons]
    cases effect with
    | deliver id dest len buff =>
      obtain rfl := sized id dest len buff List.mem_cons_self
      have body : buff.take (buff.length : Int).toNat = buff := by
        rw [Int.toNat_natCast, List.take_length]
      by_cases here : dest = fd
      · simp only [Effect.bytesOn, Effect.bodyOn, if_pos here, body]
        rfl
      · simp only [Effect.bytesOn, Effect.bodyOn, if_neg here, List.nil_append]
    | sendNotice dest record => exact absurd List.mem_cons_self (quiet dest record)
    | close dest => rfl
    | print text => rfl

theorem Downstream.relay {trace : History} {w w' : World} {more : List Effect}
    (downstream : Downstream [] n) (additions : Additions trace w w' more) :
    Downstream [] (n.relay w' more) := by
  cases link : n.link with
  | backlog =>
    have same : n.relay w' more = n := by rw [Node.relay, link]
    rw [same]
    exact downstream
  | shut =>
    have same : n.relay w' more = n := by rw [Node.relay, link]
    rw [same]
    exact downstream
  | served fd =>
    obtain ⟨ahead, split, -, whole⟩ := downstream.flight
    have frames' := frames_written fd more additions.sized additions.quiet
    have all : n.down ++ more.flatMap (Effect.bytesOn fd) =
        frames (ahead ++ more.filterMap (Effect.bodyOn fd)) ++ [] := by
      rw [whole (by rw [link]; simp), frames_append, frames', List.append_nil, List.append_nil]
    simp only [Node.relay, link]
    refine ⟨downstream.alive, downstream.looping, ahead ++ more.filterMap (Effect.bodyOn fd), ?_, ?_, ?_⟩
    · rw [split, List.append_assoc]
    · rw [all]
    · exact fun _ => all

end

/-- What has been posted to a connection has arrived in a datagram. -/
theorem posted_relay {trace : History} {w w' : World} {more : List Effect} {n : Node}
    (posted : ∀ body ∈ n.posted, body ∈ arrived trace) (additions : Additions trace w w' more) :
    ∀ body ∈ (n.relay w' more).posted, body ∈ arrived trace := by
  cases link : n.link with
  | backlog => simpa [Node.relay, link] using posted
  | shut => simpa [Node.relay, link] using posted
  | served fd =>
    intro body member
    simp only [Node.relay, link, List.mem_append] at member
    rcases member with old | new
    · exact posted body old
    · obtain ⟨effect, written, found⟩ := List.mem_filterMap.mp new
      cases effect with
      | deliver id dest len buff =>
        obtain rfl := additions.sized id dest len buff written
        simp only [Effect.bodyOn, Int.toNat_natCast, List.take_length] at found
        split at found
        · cases found
          exact additions.sourced id dest _ _ written
        · cases found
      | sendNotice dest record => cases found
      | close dest => cases found
      | print text => cases found

/-! ## Every run -/

section

variable {rt : RealText} {udpFd tcpListenFd : Fd} {past : NetworkHistory}
  {net : Network}

theorem reception_of_run (run : (networkSystem rt udpFd tcpListenFd).Run past net) {i : Nat} {n : Node}
    (known : net.nodes i = some n) :
    (∀ body ∈ n.posted, body ∈ arrived (serverTrace rt udpFd tcpListenFd past)) ∧
      ((∀ body ∈ arrived (serverTrace rt udpFd tcpListenFd past), Plain body) → Downstream [] n) := by
  apply nodes_of_run (P := fun trace n => (∀ body ∈ n.posted, body ∈ arrived trace) ∧
    ((∀ body ∈ arrived trace, Plain body) → Downstream [] n)) _ _ _ _ _ _ run i n known
  · rintro trace x n ⟨posted, downstream⟩
    rw [arrived_snoc]
    refine ⟨fun body member => List.mem_append_left _ (posted body member), ?_⟩
    exact fun plain => downstream fun body member => plain body (List.mem_append_left _ member)
  · intro trace id p launched
    exact ⟨fun body member => absurd member List.not_mem_nil, fun _ => .launch launched⟩
  · rintro trace n e n' ⟨posted, downstream⟩ ready moved
    refine ⟨by rw [(step_link moved).2.2]; exact posted, ?_⟩
    intro plain
    exact (downstream plain).move mute_nil (fun body member => arrived_length (posted body member))
      (fun body member => plain body (posted body member)) ready moved
  · rintro trace n fd ⟨posted, downstream⟩ waiting
    refine ⟨posted, fun plain => ?_⟩
    exact (downstream plain).quiet (downstream plain).alive (downstream plain).looping rfl rfl rfl
      fun _ => by rw [waiting]; simp
  · rintro trace n r ⟨posted, downstream⟩ _
    refine ⟨posted, fun plain => ?_⟩
    exact (downstream plain).quiet (downstream plain).alive (downstream plain).looping rfl rfl rfl id
  · rintro trace n w w' more ⟨posted, downstream⟩ additions
    exact ⟨posted_relay posted additions, fun plain => (downstream plain).relay additions⟩

/-- Where no datagram has a length with the low byte of 68, every subscriber has parsed what
was written to its connection, in order and each body once, and the rest is on its way:
all of it while the connection is open, a front of it afterwards. -/
theorem messages_in_order (run : (networkSystem rt udpFd tcpListenFd).Run past net)
    (plain : ∀ body ∈ arrived (serverTrace rt udpFd tcpListenFd past), Plain body) {i : Nat} {n : Node}
    (known : net.nodes i = some n) : n.process.status ≠ .aborted ∧ ∃ ahead,
      n.posted = n.process.parsed ++ ahead ∧ n.down <+: frames ahead ∧
        (n.link ≠ .shut → n.down = frames ahead) := by
  have downstream := (reception_of_run run known).2 plain
  exact ⟨(alive_ne downstream.alive).2, by simpa only [List.append_nil] using downstream.flight⟩

theorem messages_in_order_subscribed : ∃ past net n, (networkSystem noReals 3 4).Run past net ∧
    net.nodes 0 = some n ∧ n.posted.length = 1 ∧ ∃ ahead, n.posted = n.process.parsed ++ ahead ∧
      n.down = frames ahead := by
  obtain ⟨past, net, n, run, known, seen⟩ := exists_served
    (fun past n => n.posted.length = 1 ∧ n.link ≠ .shut ∧
      ∀ body ∈ arrived (serverTrace noReals 3 4 past), Plain body) (by decide)
  obtain ⟨one, opened, plain⟩ := of_decide_eq_true seen
  obtain ⟨-, ahead, split, -, whole⟩ := messages_in_order run plain known
  exact ⟨past, net, n, run, known, one, ahead, split, whole opened⟩

/-! ## Nothing stays behind -/

/-- A subscriber by itself, with so many calls of `handle_server_message`. -/
inductive OwnRun (rt : RealText) : Nat → Node → Node → Prop
  | refl {n} : OwnRun rt 0 n n
  | step {calls n m n'} (e : NodeEvent) : e.Own → n.Ready rt e → n.step rt e = some m →
      OwnRun rt calls m n' → OwnRun rt (e.calls + calls) n n'

/-- What one subscriber can do is a run of the network, in which nobody else does anything. -/
theorem own_run (run : (networkSystem rt udpFd tcpListenFd).Run past net) {i calls : Nat} {n n' : Node}
    (known : net.nodes i = some n) (moves : OwnRun rt calls n n') :
    ∃ more net', (networkSystem rt udpFd tcpListenFd).Run (past ++ more) net' ∧
      (∀ x ∈ more, ∃ e : NodeEvent, e.Own ∧ x.event = .node i e) ∧ net'.server = net.server ∧
      net'.nodes i = some n' ∧
      serverTrace rt udpFd tcpListenFd (past ++ more) = serverTrace rt udpFd tcpListenFd past := by
  induction moves generalizing past net with
  | refl => exact ⟨[], net, by simpa using run, by simp, rfl, known, by rw [List.append_nil]⟩
  | @step calls n m n' e own ready moved moves ih =>
    have enabled : (networkSystem rt udpFd tcpListenFd).enabled net (.node i e) := ⟨n, known, ready⟩
    have stepped : (networkSystem rt udpFd tcpListenFd).step net (.node i e) = some (net.set i m) := by
      simp only [networkSystem, Network.step, known, Option.bind_eq_bind, Option.bind_some, moved]
    obtain ⟨more, net', run', others, server, known', trace⟩ :=
      ih (run.next enabled stepped) (by rw [set_nodes, if_pos rfl])
    rw [serverTrace_moved, List.append_assoc] at trace
    rw [List.append_assoc] at run'
    refine ⟨_, net', run', ?_, server, known', trace⟩
    rintro x member
    rcases List.mem_append.mp member with first | later
    · rw [List.mem_singleton.mp first]
      exact ⟨e, own, rfl⟩
    · exact others x later

/-- One sweep of the subscriber for each body that is on its way. -/
theorem drains (rt : RealText) {n : Node} {ahead : List Bytes} {tail : Bytes}
    (split : n.posted = n.process.parsed ++ ahead) (flight : n.down = frames ahead ++ tail)
    (phase : n.process.phase = .atPoll) (running : n.process.status = .running)
    (sized : ∀ body ∈ ahead, 6 ≤ body.length ∧ body.length < 2 ^ 31)
    (plain : ∀ body ∈ ahead, Plain body) :
    ∃ calls n', OwnRun rt calls n n' ∧ n'.process.parsed = n.posted ∧ n'.posted = n.posted ∧
      n'.down = tail := by
  induction ahead generalizing n with
  | nil => exact ⟨0, n, .refl, by rw [split, List.append_nil], rfl, flight⟩
  | cons body rest ih =>
    rw [List.forall_mem_cons] at sized plain
    rw [frames_cons, List.append_assoc] at flight
    have whole : n.down.length = 4 + body.length + (frames rest ++ tail).length := by
      rw [flight, List.length_append, framed_length]
    have pending : n.down ≠ [] := List.ne_nil_of_length_pos (by omega)
    have front : n.down <+: framed body ++ (frames rest ++ tail) := by rw [flight]
    obtain ⟨parsed, status, down⟩ := message_reads rt
      (n := { n with process := n.process.poll false true }) (fun _ => none) sized.1 plain.1
      front (by dsimp only; omega)
    rw [Process.poll_status, running] at status
    have behind : n.down.drop (4 + body.length) = frames rest ++ tail := by
      rw [flight, List.drop_left' (framed_length body)]
    obtain ⟨calls, n', moves, done⟩ := ih
      (n := Node.message { n with process := n.process.poll false true } rt fun _ => none)
      (by rw [parsed, Process.poll_parsed, List.append_assoc]; exact split)
      (by rw [down, behind]) (by rw [message_looping, if_pos status]) status sized.2 plain.2
    refine ⟨_, n', .step (.poll false true) trivial ⟨phase, fun _ => .inl pending⟩ rfl
      (.step (.message fun _ => none) trivial ⟨rfl, ?_⟩ rfl moves), done⟩
    rw [status]
    decide

/-- While its connection is open, a subscriber that goes round its loop can read everything
that has been written to it, by steps of its own. -/
theorem exists_drained (run : (networkSystem rt udpFd tcpListenFd).Run past net)
    (plain : ∀ body ∈ arrived (serverTrace rt udpFd tcpListenFd past), Plain body) {i : Nat} {n : Node}
    (known : net.nodes i = some n) (opened : n.link ≠ .shut) (phase : n.process.phase = .atPoll) :
    ∃ more net' n', (networkSystem rt udpFd tcpListenFd).Run (past ++ more) net' ∧
      (∀ x ∈ more, ∃ e : NodeEvent, e.Own ∧ x.event = .node i e) ∧ net'.server = net.server ∧
      net'.nodes i = some n' ∧ n'.process.parsed = n.posted ∧ n'.posted = n.posted ∧ n'.down = [] := by
  obtain ⟨posted, reads⟩ := reception_of_run run known
  have downstream := reads plain
  obtain ⟨ahead, split, -, whole⟩ := downstream.flight
  have here : ∀ body ∈ ahead, body ∈ arrived (serverTrace rt udpFd tcpListenFd past) := by
    intro body member
    apply posted
    rw [split, List.mem_append]
    exact .inr member
  obtain ⟨calls, n', moves, done⟩ := drains rt split (whole opened) phase (downstream.looping phase)
    (fun body member => arrived_length (here body member)) (fun body member => plain body (here body member))
  obtain ⟨more, net', run', own, server, known', -⟩ := own_run run known moves
  exact ⟨more, net', n', run', own, server, known', done⟩

theorem exists_drained_subscribed : ∃ past net n, (networkSystem noReals 3 4).Run past net ∧
    net.nodes 0 = some n ∧ n.process.parsed = [] ∧ ∃ more net' n',
      (networkSystem noReals 3 4).Run (past ++ more) net' ∧ net'.nodes 0 = some n' ∧
        n'.process.parsed.length = 1 := by
  obtain ⟨past, net, n, run, known, seen⟩ := exists_served
    (fun past n => n.process.parsed = [] ∧ n.posted.length = 1 ∧ n.link ≠ .shut ∧
      n.process.phase = .atPoll ∧ ∀ body ∈ arrived (serverTrace noReals 3 4 past), Plain body) (by decide)
  obtain ⟨nothing, one, opened, phase, plain⟩ := of_decide_eq_true seen
  obtain ⟨more, net', n', run', -, -, known', parsed, -⟩ := exists_drained run plain known opened phase
  exact ⟨past, net, n, run, known, nothing, more, net', n', run', known', by rw [parsed, one]⟩

end

end PubSub.Properties
