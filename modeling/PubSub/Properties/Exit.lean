import PubSub.Properties.MainLoop
import PubSub.Properties.Sessions

/-!
# The end of the server

What the exit command sends, closes and deletes, as one change of the state. What is
still waiting for a client is not sent.
-/
namespace PubSub.Properties

open General Std

/-! ## The three loops -/

/-- What the first loop sends to a client. -/
def noticeFor (heap : Heap TcpClient) (p : ClientPtr) : Option Effect :=
  (heap.read p).bind fun c => if c.connected then some (.sendNotice c.fd shutdownNotice) else none

/-- The descriptors the second loop closes. -/
def targets (entries : List PollFd) : List Fd := (entries.map PollFd.fd).filter (· ≠ stdinFileno)

theorem notify_all (ptrs : List ClientPtr) (w w' : World) (done : ptrs.foldlM notifyClient w = some w') :
    w' = { w with output := w.output ++ ptrs.filterMap (noticeFor w.clientHeap) } := by
  induction ptrs generalizing w with
  | nil =>
    cases done
    simp
  | cons p ptrs ih =>
    rw [List.foldlM_cons, Option.bind_eq_bind, Option.bind_eq_some_iff] at done
    obtain ⟨v, first, rest⟩ := done
    rw [ih v rest]
    simp only [notifyClient, Option.bind_eq_bind, Option.bind_eq_some_iff] at first
    obtain ⟨c, cell, sent⟩ := first
    split at sent
    next connected =>
      cases sent
      simp [noticeFor, cell, connected, World.emit]
    next away =>
      cases sent
      simp [noticeFor, cell, away]

theorem close_all (entries : List PollFd) (w : World) :
    entries.foldl (fun w pfd => if pfd.fd ≠ stdinFileno then w.closeFd pfd.fd else w) w =
      { w with
        output := w.output ++ (targets entries).map .close
        openFds := w.openFds.filter (· ∉ targets entries) } := by
  induction entries generalizing w with
  | nil => simp [targets]
  | cons entry entries ih =>
    rw [List.foldl_cons, ih]
    by_cases stdin : entry.fd = stdinFileno
    · simp [targets, stdin]
    · have here : targets (entry :: entries) = entry.fd :: targets entries := by simp [targets, stdin]
      simp [here, stdin, World.closeFd, World.emit, List.filter_filter, Bool.and_comm]

theorem free_all (ptrs : List ClientPtr) (w w' : World) (done : ptrs.foldlM freeClient w = some w') :
    w' = { w with messageHeap := w'.messageHeap, clientHeap := ptrs.foldl Heap.free w.clientHeap } := by
  induction ptrs generalizing w with
  | nil =>
    cases done
    rfl
  | cons p ptrs ih =>
    rw [List.foldlM_cons, Option.bind_eq_bind, Option.bind_eq_some_iff] at done
    obtain ⟨v, first, rest⟩ := done
    rw [ih v rest]
    simp only [freeClient, release_eq, Option.bind_eq_bind, Option.bind_eq_some_iff,
      Option.map_eq_some_iff] at first
    obtain ⟨c, -, _, ⟨heap, -, rfl⟩, freed⟩ := first
    cases freed
    rfl

/-! ## The whole command -/

/-- One notice for each session, in the order of the ids. -/
def notices (w : World) : List Effect :=
  w.state.clients.keys.filterMap fun id => (session w id).bind fun s =>
    if s.2 then some (.sendNotice s.1 shutdownNotice) else none

/-- The state behind the exit command. -/
structure ShutDown (w w' : World) : Prop where
  output : w'.output = w.output ++ (notices w ++ (targets w.pollSet).map .close)
  openFds : w'.openFds = w.openFds.filter (· ∉ targets w.pollSet)
  clients : ∀ p, w'.clientHeap.read p = none
  messages : ∀ p, w'.messageHeap.read p = none
  state : w'.state = w.state
  pollSet : w'.pollSet = w.pollSet

section

variable {w w' : World}

theorem notices_eq (tables : Tables w) : w.clientPtrs.filterMap (noticeFor w.clientHeap) = notices w := by
  rw [World.clientPtrs, notices, ← TreeMap.map_fst_toList_eq_keys, List.filterMap_map, List.filterMap_map]
  apply List.filterMap_congr
  rintro ⟨id, p⟩ member
  rw [TreeMap.mem_toList_iff_getElem?_eq_some] at member
  obtain ⟨c, record⟩ := record_of_entry tables member
  simp only [Function.comp_apply, noticeFor, record.cell, Option.bind_some, session_of_record record]

theorem shutdown_spec (healthy : Healthy w) (done : shutdown w = some w') : ShutDown w w' := by
  obtain ⟨other, total, gone, -⟩ := shutdown_total healthy
  obtain rfl : other = w' := Option.some.inj (total.symm.trans done)
  simp only [shutdown, Option.bind_eq_bind, Option.bind_eq_some_iff] at done
  obtain ⟨v, notified, freed⟩ := done
  have first := notify_all _ _ _ notified
  rw [notices_eq healthy.tables] at first
  rw [close_all] at freed
  have last := free_all _ _ _ freed
  subst first
  refine ⟨?_, ?_, ?_, gone, ?_, ?_⟩
  · rw [last, List.append_assoc]
  · rw [last]
  · intro p
    rw [last, Heap.read_foldl_free]
    split
    · rfl
    next unknown =>
      have dead := mt (mem_clientPtrs healthy.tables p).mpr unknown
      rwa [Option.not_isSome_iff_eq_none] at dead
  · rw [last]
  · rw [last]

/-- The effects of the command are notices and close calls. -/
theorem notice_or_close (w : World) : ∀ effect ∈ notices w ++ (targets w.pollSet).map .close,
    (∃ fd, effect = .sendNotice fd shutdownNotice) ∨ ∃ fd, effect = .close fd := by
  intro effect member
  rcases List.mem_append.mp member with notice | close
  · obtain ⟨id, -, found⟩ := List.mem_filterMap.mp notice
    obtain ⟨s, -, sent⟩ := Option.bind_eq_some_iff.mp found
    split at sent
    · cases sent
      exact .inl ⟨_, rfl⟩
    · cases sent
  · obtain ⟨fd, -, rfl⟩ := List.mem_map.mp close
    exact .inr ⟨_, rfl⟩

theorem ShutDown.delivered (shut : ShutDown w w') (id : Bytes) :
    delivered id w'.output = delivered id w.output := by
  have nothing : ∀ effect ∈ notices w ++ (targets w.pollSet).map .close, deliveredTo id effect = none := by
    intro effect member
    rcases notice_or_close w effect member with ⟨fd, rfl⟩ | ⟨fd, rfl⟩
    · rfl
    · rfl
  rw [shut.output, Properties.delivered, List.filterMap_append, List.filterMap_eq_nil_iff.mpr nothing,
    List.append_nil, Properties.delivered]

/-- The sockets a server has open are those it polls. -/
theorem Polled.open_polled {udpFd tcpListenFd : Fd} (polled : Polled udpFd tcpListenFd w) (fd : Fd) :
    fd ∈ w.openFds ↔ fd ∈ w.pollSet.map PollFd.fd := by
  have front : (w.pollSet.take 3).map PollFd.fd = fixedFds udpFd tcpListenFd := by
    rw [polled.fixed]
    rfl
  rw [polled.opened, ← List.take_append_drop 3 w.pollSet, List.map_append, List.mem_append, front,
    World.connections]

/-- Every socket is closed. -/
theorem ShutDown.open_iff (shut : ShutDown w w')
    (polled : ∀ fd, fd ∈ w.openFds ↔ fd ∈ w.pollSet.map PollFd.fd) (stdin : stdinFileno ∈ w.openFds)
    (fd : Fd) : fd ∈ w'.openFds ↔ fd = stdinFileno := by
  rw [shut.openFds, List.mem_filter, decide_eq_true_iff, targets, List.mem_filter, decide_eq_true_iff,
    ← polled]
  constructor
  · rintro ⟨here, kept⟩
    by_contra other
    exact kept ⟨here, other⟩
  · rintro rfl
    exact ⟨stdin, fun closed => closed.2 rfl⟩

theorem Polled.stdin_open {udpFd tcpListenFd : Fd} (polled : Polled udpFd tcpListenFd w) :
    stdinFileno ∈ w.openFds := (polled.opened _).mpr (.inl (by simp [fixedFds]))

end

/-! ## Where the notices go -/

section

variable {udpFd tcpListenFd : Fd} {trace : History} {w : World}

end

/-! ## The round that leaves the loop -/

section

variable {udpFd tcpListenFd : Fd} {past : List (Transition Turn LoopEvent)} {t t' : Turn} {a : Answers}

end

end PubSub.Properties
