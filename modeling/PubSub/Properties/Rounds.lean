import PubSub.Properties.Sweeps
import PubSub.General.Refinement
import Mathlib.Data.List.InsertIdx

/-!
# Every run of the loop is a run of the server

The transition system lets any event follow any other. Here the rounds of the loop are
shown to be such events: what `poll` has written into the poll set apart, the states
between two rounds are states of the transition system, so what holds of its runs holds
of the server's loop.
-/
namespace PubSub.Properties

open General Std

def quietEntry (entry : PollFd) : PollFd := { entry with revents := 0 }

/-- The state without what `poll` has written into it. -/
def quiet (w : World) : World := w.afterPoll (w.pollSet.map quietEntry)

section

variable (w : World)

@[simp] theorem quiet_state : (quiet w).state = w.state := rfl
@[simp] theorem quiet_clientHeap : (quiet w).clientHeap = w.clientHeap := rfl
@[simp] theorem quiet_messageHeap : (quiet w).messageHeap = w.messageHeap := rfl
end

/-! ## The handlers do not look at what `poll` has written -/

theorem quiet_dropConnection (w : World) (fd : Fd) (index : Nat) :
    (quiet w).dropConnection fd index = quiet (w.dropConnection fd index) := by
  have entries := List.eraseIdx_map quietEntry w.pollSet index
  simp only [quiet, World.afterPoll, World.dropConnection, World.closeFd, World.emit, entries]

theorem quiet_accept (w : World) (fd : Fd) (peer : SockAddr) :
    handleNewConnection fd peer (quiet w) = quiet (handleNewConnection fd peer w) := by
  simp [handleNewConnection, quiet, World.afterPoll, quietEntry]

theorem quiet_disconnect (w : World) (fd : Fd) (index : Nat) :
    handleClientDisconnect fd index (quiet w) = (handleClientDisconnect fd index w).map quiet := by
  simp only [handleClientDisconnect, quiet_state, quiet_clientHeap]
  cases findClientByFd w.clientHeap fd w.state.clients.toList with
  | none => rfl
  | some id =>
    simp only [Option.bind_eq_bind, Option.bind_some]
    split
    · cases w.state.clients[id]? with
      | none => rfl
      | some p =>
        dsimp only
        cases w.clientHeap.read p with
        | none => rfl
        | some c => exact congrArg some (quiet_dropConnection (w.setClient p _) fd index)
    · exact congrArg some (quiet_dropConnection w fd index)

theorem quiet_announce (w : World) (clientId : Bytes) (fd : Fd) :
    announceClient (quiet w) clientId fd = quiet (announceClient w clientId fd) := by
  simp only [announceClient, addressEntry, quiet_state]
  cases w.state.clientAddresses[fd]? <;> rfl

theorem quiet_connect (w : World) (fd : Fd) (clientId : Bytes) (index : Nat) (fresh : ClientPtr) :
    handleConnect fd clientId index fresh (quiet w) =
      (handleConnect fd clientId index fresh w).map quiet := by
  simp only [handleConnect, quiet_state, quiet_clientHeap, quiet_announce, flush_eq]
  cases w.state.clients[clientId]? with
  | none => rfl
  | some p =>
    dsimp only
    cases w.clientHeap.read p with
    | none => rfl
    | some c =>
      simp only [Option.bind_eq_bind, Option.bind_some]
      split
      · exact congrArg some (quiet_dropConnection (w.emit _) fd index)
      · simp only [World.setClient_messageHeap, quiet_messageHeap]
        cases releaseMessages (announceClient w clientId fd).messageHeap c.lostMessages <;> rfl

theorem quiet_subscribe (w : World) (clientId topic : Bytes) (sf : Bool) :
    handleSubscribe clientId topic sf (quiet w) = (handleSubscribe clientId topic sf w).map quiet := by
  have vector : (quiet w).subscribers topic = w.subscribers topic := rfl
  simp only [handleSubscribe, quiet_state, quiet_clientHeap, vector]
  cases w.state.clients[clientId]? with
  | none => rfl
  | some p =>
    dsimp only
    cases w.clientHeap.read p with
    | none => rfl
    | some c =>
      simp only [Option.bind_eq_bind, Option.bind_some]
      split <;> rfl

theorem quiet_unsubscribe (w : World) (clientId topic : Bytes) :
    handleUnsubscribe clientId topic (quiet w) = (handleUnsubscribe clientId topic w).map quiet := by
  simp only [handleUnsubscribe, quiet_state, quiet_clientHeap]
  cases w.state.clients[clientId]? with
  | none => rfl
  | some p =>
    dsimp only
    cases w.clientHeap.read p with
    | none => rfl
    | some c => cases w.state.subscriptions[topic]? <;> rfl

theorem quiet_exit (w : World) (fd : Fd) (clientId : Bytes) (index : Nat) :
    handleExit fd clientId index (quiet w) = (handleExit fd clientId index w).map quiet := by
  simp only [handleExit, quiet_state, quiet_clientHeap]
  cases w.state.clients[clientId]? with
  | none => exact congrArg some (quiet_dropConnection w fd index)
  | some p =>
    dsimp only
    cases w.clientHeap.read p with
    | none => rfl
    | some c => exact congrArg some (quiet_dropConnection ((w.emit _).setClient p _) fd index)

theorem quiet_request (w : World) (fd : Fd) (r : TcpRequest) (index : Nat) (fresh : ClientPtr) :
    handleClientRequest fd r index fresh (quiet w) =
      (handleClientRequest fd r index fresh w).map quiet := by
  simp only [handleClientRequest]
  cases r.type with
  | message => exact quiet_connect w fd r.clientId index fresh
  | subscribe => exact quiet_subscribe w r.clientId r.topic r.sf
  | unsubscribe => exact quiet_unsubscribe w r.clientId r.topic
  | exit => exact quiet_exit w fd r.clientId index
  | other word => rfl

/-! ## Datagrams -/

def quietFan (acc : FanOut) : FanOut := (quiet acc.1, acc.2)

theorem quiet_fanOutClient (message : MessagePtr) (pattern : Bytes) (acc : FanOut) (client : ClientPtr) :
    fanOutClient message pattern (quietFan acc) client =
      (fanOutClient message pattern acc client).map quietFan := by
  obtain ⟨w, recipients⟩ := acc
  have cell : (quiet w).clientHeap.read client = w.clientHeap.read client := rfl
  have body : (quiet w).messageHeap.read message = w.messageHeap.read message := rfl
  simp only [fanOutClient, quietFan, cell, body]
  cases w.clientHeap.read client with
  | none => rfl
  | some c =>
    cases w.messageHeap.read message <;>
    · simp only [Option.bind_eq_bind, Option.bind_some, Option.bind_none]
      split_ifs <;> rfl

theorem quiet_fanOutPattern (message : MessagePtr) (topic : Bytes) (acc : FanOut)
    (entry : Bytes × List ClientPtr) :
    fanOutPattern message topic (quietFan acc) entry =
      (fanOutPattern message topic acc entry).map quietFan := by
  simp only [fanOutPattern]
  cases topicMatchesPattern topic entry.1 with
  | none => rfl
  | some matched =>
    cases matched with
    | true => exact foldlM_commutes _ quietFan (quiet_fanOutClient message entry.1) entry.2 acc
    | false => rfl

theorem quiet_datagram (w : World) (stale : Nat → UInt8) (message : MessagePtr) (d : Datagram) :
    processUdpMessage stale message d (quiet w) = (processUdpMessage stale message d w).map quiet := by
  have fan : (quiet w).state.subscriptions.toList.foldlM
        (fanOutPattern message (currentTopic stale d.payload))
        ({ quiet w with messageHeap := (quiet w).messageHeap.alloc message d.message }, []) =
      (w.state.subscriptions.toList.foldlM (fanOutPattern message (currentTopic stale d.payload))
        ({ w with messageHeap := w.messageHeap.alloc message d.message }, [])).map quietFan :=
    foldlM_commutes _ quietFan (quiet_fanOutPattern message _) w.state.subscriptions.toList
      ({ w with messageHeap := w.messageHeap.alloc message d.message }, [])
  simp only [processUdpMessage, fan]
  cases w.state.subscriptions.toList.foldlM (fanOutPattern message (currentTopic stale d.payload))
      ({ w with messageHeap := w.messageHeap.alloc message d.message }, []) with
  | none => rfl
  | some acc =>
    obtain ⟨w', recipients⟩ := acc
    simp only [Option.bind_eq_bind, Option.bind_some, Option.map_some, quietFan, quiet_messageHeap]
    cases w'.messageHeap.read message with
    | none => rfl
    | some m =>
      simp only [Option.bind_some]
      split_ifs <;> rfl

/-! ## Rounds are events -/

section

variable {udpFd tcpListenFd : Fd} {t t' : Turn} {a : Answers} {pfd : PollFd}

theorem quiet_here (here : t.world.pollSet[t.idx]? = some pfd) :
    ((quiet t.world).pollSet[t.idx]?).map PollFd.fd = some pfd.fd := by
  simp [quiet, World.afterPoll, here, quietEntry]

/-- The entry the loop looks at is a polled connection, found at the loop's index. -/
theorem Polled.at_index (polled : Polled udpFd tcpListenFd (quiet t.world))
    (here : t.world.pollSet[t.idx]? = some pfd)
    (connection : pfd.fd ≠ tcpListenFd ∧ pfd.fd ≠ udpFd ∧ pfd.fd ≠ stdinFileno) :
    pfd.fd ∈ (quiet t.world).connections ∧ t.idx = (quiet t.world).indexOf pfd.fd := by
  have other : pfd.fd ∉ fixedFds udpFd tcpListenFd := by
    rw [mem_fixedFds]
    exact not_not.mpr connection
  have known := List.mem_of_getElem? (polled.place other t.idx (quiet_here here)).2
  exact ⟨known, polled.index_unique known t.idx (quiet_here here)⟩

/-- The event that the round of an entry amounts to, if any. -/
def eventOf (udpFd tcpListenFd : Fd) (a : Answers) (pfd : PollFd) : Option Event :=
  if pfd.failed then
    if pfd.fd ≠ tcpListenFd ∧ pfd.fd ≠ udpFd ∧ pfd.fd ≠ stdinFileno then some (.disconnect pfd.fd)
    else none
  else if !pfd.readable then none
  else if pfd.fd = udpFd then some (.datagram a.datagram a.stale a.message)
  else if pfd.fd = tcpListenFd then some (.accept a.accepted a.peer)
  else if pfd.fd = stdinFileno then none
  else match a.received with
    | none => some (.disconnect pfd.fd)
    | some r => some (.request pfd.fd r a.fresh)

/-- What a round does to the state, what `poll` has written apart. -/
inductive Handles (v v' : World) : Option Event → Prop
  | nothing : v' = v → Handles v v' none
  | event {e : Event} : e.Enabled v → v.dispatch e = some v' → Handles v v' (some e)

/-- A round handles one event, or changes no more than the loop's own variables. -/
theorem round_event (polled : Polled udpFd tcpListenFd (quiet t.world)) (fit : a.Fit t.world)
    (here : t.world.pollSet[t.idx]? = some pfd) (served : t.serve udpFd tcpListenFd a pfd = some t')
    (stays : t'.exited = false) :
    Handles (quiet t.world) (quiet t'.world) (eventOf udpFd tcpListenFd a pfd) := by
  simp only [Turn.serve, Option.bind_eq_bind] at served
  simp only [eventOf]
  split at served
  next failed =>
    rw [if_pos failed]
    split at served
    next connection =>
      rw [if_pos connection]
      obtain ⟨w, done, shape⟩ := Option.bind_eq_some_iff.mp served
      cases shape
      obtain ⟨known, index⟩ := polled.at_index here connection
      refine .event known ?_
      rw [World.dispatch, ← index, quiet_disconnect, done]
      rfl
    next fixed =>
      rw [if_neg fixed]
      cases served
      exact .nothing rfl
  next sound =>
    rw [if_neg sound]
    split at served
    next idle =>
      rw [if_pos idle]
      cases served
      exact .nothing rfl
    next readable =>
      rw [if_neg readable]
      split at served
      next udp =>
        rw [if_pos udp]
        obtain ⟨w, done, shape⟩ := Option.bind_eq_some_iff.mp served
        cases shape
        refine .event fit.message ?_
        rw [World.dispatch, quiet_datagram, done]
        rfl
      next notUdp =>
        rw [if_neg notUdp]
        split at served
        next listen =>
          rw [if_pos listen]
          cases served
          refine .event fit.accepted ?_
          rw [World.dispatch, quiet_accept]
          rfl
        next notListen =>
          rw [if_neg notListen]
          split at served
          next stdin =>
            -- A command other than `exit` does nothing.
            rw [if_pos stdin]
            obtain ⟨⟨w, leave⟩, done, shape⟩ := Option.bind_eq_some_iff.mp served
            cases shape
            simp only [handleServerCommand, Option.bind_eq_bind] at done
            split at done
            · obtain ⟨_, _, left⟩ := Option.bind_eq_some_iff.mp done
              cases left
              cases stays
            · cases done
              exact .nothing rfl
          next notStdin =>
            rw [if_neg notStdin]
            obtain ⟨known, index⟩ := polled.at_index here ⟨notListen, notUdp, notStdin⟩
            revert served
            cases a.received with
            | none =>
              intro served
              obtain ⟨w, done, shape⟩ := Option.bind_eq_some_iff.mp served
              cases shape
              refine .event known ?_
              rw [World.dispatch, ← index, quiet_disconnect, done]
              rfl
            | some r =>
              intro served
              obtain ⟨w, done, shape⟩ := Option.bind_eq_some_iff.mp served
              cases shape
              refine .event ⟨known, fit.fresh⟩ ?_
              rw [World.dispatch, ← index, quiet_request, done]
              rfl

end

/-! ## The main loop -/

/-- The event of a step of the loop, if any. -/
def loopEvent (udpFd tcpListenFd : Fd) (t : Turn) : LoopEvent → Option Event
  | .poll _ => none
  | .round a => t.world.pollSet[t.idx]?.bind (eventOf udpFd tcpListenFd a)

/-- The loop in front of a step. -/
structure Steady (udpFd tcpListenFd : Fd) (t : Turn) : Prop where
  running : t.exited = false
  polled : Polled udpFd tcpListenFd (quiet t.world)
  healthy : Healthy (quiet t.world)

section

variable {udpFd tcpListenFd : Fd} {t t' : Turn} {e : LoopEvent}

/-- What `poll` has written has nothing to do with the tables. -/
theorem Healthy.loud {w : World} (healthy : Healthy (quiet w)) : Healthy w :=
  ⟨healthy.tables.congr ⟨rfl, rfl, fun _ => rfl⟩, healthy.references.congr ⟨rfl, fun _ => rfl, rfl⟩⟩

theorem quiet_asked {w : World} {polls : List PollFd}
    (same : polls.map PollFd.asked = w.pollSet.map PollFd.asked) : quiet (w.afterPoll polls) = quiet w := by
  have entry : quietEntry = (fun asked : Fd × BitVec 16 => (⟨asked.1, asked.2, 0⟩ : PollFd)) ∘ PollFd.asked :=
    rfl
  have entries : polls.map quietEntry = w.pollSet.map quietEntry := by
    rw [entry, ← List.map_map, same, List.map_map]
  rw [quiet, quiet, ← entries]
  rfl

/-- A step of the loop is an event of the server or changes no more than the loop's own
variables. -/
theorem Steady.handles (steady : Steady udpFd tcpListenFd t) (enabled : t.Enabled udpFd tcpListenFd e)
    (stepped : t.next udpFd tcpListenFd e = some t') :
    t'.exited = false ∧ Handles (quiet t.world) (quiet t'.world) (loopEvent udpFd tcpListenFd t e) := by
  cases e with
  | poll polls =>
    cases stepped
    exact ⟨rfl, .nothing (quiet_asked enabled.2)⟩
  | round a =>
    obtain ⟨inside, fit, stays⟩ := enabled
    have running := stays t' stepped
    refine ⟨running, ?_⟩
    have here : t.world.pollSet[t.idx]? = some t.world.pollSet[t.idx] := List.getElem?_eq_getElem inside
    rw [Turn.next, Turn.iterate, here, Option.bind_some] at stepped
    rw [loopEvent, here, Option.bind_some]
    exact round_event steady.polled fit here stepped running

theorem Steady.step (steady : Steady udpFd tcpListenFd t) (enabled : t.Enabled udpFd tcpListenFd e)
    (stepped : t.next udpFd tcpListenFd e = some t') : Steady udpFd tcpListenFd t' := by
  obtain ⟨running, handles⟩ := steady.handles enabled stepped
  revert handles
  cases loopEvent udpFd tcpListenFd t e with
  | none =>
    intro handles
    cases handles with
    | nothing same =>
      refine ⟨running, ?_, ?_⟩
      · rw [same]
        exact steady.polled
      · rw [same]
        exact steady.healthy
  | some s =>
    intro handles
    cases handles with
    | event allowed handled =>
      have outcome := dispatch_outcome steady.healthy allowed handled
      exact ⟨running, steady.polled.step allowed outcome, steady.healthy.step allowed outcome⟩

theorem steady_of_run {past : List (Transition Turn LoopEvent)}
    (run : (loopSystem udpFd tcpListenFd).Run past t) : Steady udpFd tcpListenFd t := by
  apply run.state_invariant
  · exact ⟨rfl, Polled.start, Tables.start _ _, References.start _ _⟩
  · exact fun t e t' steady enabled stepped => steady.step enabled stepped

end

variable (udpFd tcpListenFd : Fd)

/-- The loop refines the server. -/
def loopRefinement : Refinement (loopSystem udpFd tcpListenFd) (serverSystem udpFd tcpListenFd) where
  image t := quiet t.world
  label := loopEvent udpFd tcpListenFd
  start := rfl
  seen past t e t' s run enabled stepped label := by
    obtain ⟨-, handles⟩ := (steady_of_run run).handles enabled stepped
    rw [label] at handles
    cases handles with
    | event allowed handled => exact ⟨allowed, handled⟩
  unseen past t e t' run enabled stepped label := by
    obtain ⟨-, handles⟩ := (steady_of_run run).handles enabled stepped
    rw [label] at handles
    cases handles with
    | nothing same => exact same

/-! ## The poll set in the loop -/

section

variable {udpFd tcpListenFd}

/-- A connection that is given up is the one that the event comes from. -/
theorem givenUp_origin {w : World} {s : Event} {fd : Fd} (goes : givenUp w s = some fd) :
    s = .disconnect fd ∨ ∃ r fresh, s = .request fd r fresh := by
  cases s with
  | accept => cases goes
  | datagram => cases goes
  | disconnect other =>
    cases goes
    exact .inl rfl
  | request other r fresh =>
    simp only [givenUp] at goes
    split at goes
    · cases goes
      exact .inr ⟨r, fresh, rfl⟩
    · cases goes

/-- The event of a round comes from its entry. -/
theorem eventOf_origin {a : Answers} {pfd : PollFd} {s : Event} {fd : Fd}
    (event : eventOf udpFd tcpListenFd a pfd = some s)
    (origin : s = .disconnect fd ∨ ∃ r fresh, s = .request fd r fresh) : fd = pfd.fd := by
  have lost : some (Event.disconnect pfd.fd) = some s → fd = pfd.fd := by
    intro same
    cases same
    rcases origin with same | ⟨r, fresh, same⟩
    · cases same
      rfl
    · cases same
  simp only [eventOf] at event
  split_ifs at event
  · exact lost event
  · cases event
    rcases origin with same | ⟨r, fresh, same⟩ <;> cases same
  · cases event
    rcases origin with same | ⟨r, fresh, same⟩ <;> cases same
  · cases received : a.received with
    | none =>
      rw [received] at event
      exact lost event
    | some request =>
      rw [received] at event
      cases event
      rcases origin with same | ⟨r, fresh, same⟩
      · cases same
      · cases same
        rfl

/-- The entry that a round takes out is the one at the loop's own index. -/
theorem Steady.pollStep {t t' : Turn} {e : LoopEvent} {s : Event} (steady : Steady udpFd tcpListenFd t)
    (enabled : t.Enabled udpFd tcpListenFd e) (stepped : t.next udpFd tcpListenFd e = some t')
    (event : loopEvent udpFd tcpListenFd t e = some s) :
    PollStep t.idx (quiet t.world) (quiet t'.world) s := by
  obtain ⟨-, handles⟩ := steady.handles enabled stepped
  rw [event] at handles
  cases handles with
  | event allowed handled =>
    obtain ⟨index, step⟩ := steady.polled.pollStep allowed (dispatch_outcome steady.healthy allowed handled)
    apply step.at_entry
    intro fd goes
    cases e with
    | poll polls => cases event
    | round a =>
      obtain ⟨pfd, here, event⟩ := Option.bind_eq_some_iff.mp event
      rw [quiet_here here, eventOf_origin event (givenUp_origin goes)]

/-- Poll set, address table and open descriptors agree in every reachable state. A loss, an
EXIT and a rejected CONNECT close the connection they come on, once, and take out its entry,
which in the main loop is the one at the loop's index; nothing else closes a connection or
takes out an entry. At the exit command each accepted descriptor has been closed as often
as it has been accepted. -/
theorem descriptors_agree {past : History} {w : World} (run : (serverSystem udpFd tcpListenFd).Run past w) :
    InAgreement udpFd tcpListenFd past w ∧
      (∀ e w', e.Enabled w → w.dispatch e = some w' → ∃ index, PollStep index w w' e) ∧
      (∀ turns t, (loopSystem udpFd tcpListenFd).Run turns t → quiet t.world = w →
        ∀ e t', t.Enabled udpFd tcpListenFd e → t.next udpFd tcpListenFd e = some t' →
          (loopEvent udpFd tcpListenFd t e = none → quiet t'.world = w) ∧
            ∀ s, loopEvent udpFd tcpListenFd t e = some s → PollStep t.idx w (quiet t'.world) s) ∧
      ∀ line, stringToArgv line = [ascii "exit"] →
        ∃ w', handleServerCommand line w = some (w', true) ∧
          ∀ fd ∉ fixedFds udpFd tcpListenFd, closes w' fd = accepts past fd := by
  refine ⟨inAgreement_of_run run, ?_, ?_, fun line command => exit_closes run command⟩
  · intro e w' enabled stepped
    exact (polled_of_run run).pollStep enabled (dispatch_outcome (healthy_of_run run) enabled stepped)
  · rintro turns t loop rfl e t' enabled stepped
    have steady := steady_of_run loop
    refine ⟨?_, fun s event => steady.pollStep enabled stepped event⟩
    intro silent
    obtain ⟨-, handles⟩ := steady.handles enabled stepped
    rw [silent] at handles
    cases handles with
    | nothing same => exact same

end

/-- A run in which a descriptor comes back. -/
def secondLife : List Event :=
  [.accept 5 default, .request 5 (exampleRequest .message "A" "" 0) 1, .accept 6 default,
    .request 6 (exampleRequest .message "A" "" 0) 9, .request 5 (exampleRequest .exit "A" "" 0) 9,
    .accept 5 default]

theorem descriptors_agree_reused : ∃ past w, (serverSystem 3 4).Run past w ∧
    InAgreement 3 4 past w ∧ accepts past 5 = 2 ∧ closes w 5 = 1 ∧ w.connections = [5] := by
  obtain ⟨past, w, run, counted⟩ := System.exists_run (S := serverSystem 3 4) secondLife
    (fun past w => accepts past 5 = 2 ∧ closes w 5 = 1 ∧ w.connections = [5]) (by decide)
  exact ⟨past, w, run, (descriptors_agree run).1, of_decide_eq_true counted⟩

end PubSub.Properties
