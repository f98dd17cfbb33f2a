import PubSub.Properties.Polls
import PubSub.Properties.Lifetimes

/-!
# Descriptors are opened and closed in turn

Descriptor numbers come back after a close, so what can be said of a number is a balance:
it has been accepted as often as it has been closed, and once more while it is in use.
-/
namespace PubSub.Properties

open General Std

/-- How often `accept` has returned this descriptor. -/
def accepts (past : History) (fd : Fd) : Nat :=
  past.countP fun x => match x.event with
    | .accept other _ => other = fd
    | _ => false

/-- How often `close` has been called on this descriptor. -/
def closes (w : World) (fd : Fd) : Nat := w.output.count (.close fd)

theorem closes_output (w w' : World) (more : List Effect) (output : w'.output = w.output ++ more)
    (fd : Fd) : closes w' fd = closes w fd + more.count (.close fd) := by
  rw [closes, output, List.count_append, closes]

/-- Nothing is closed. -/
theorem closes_same (w w' : World) (more : List Effect) (output : w'.output = w.output ++ more)
    (quiet : ∀ fd, .close fd ∉ more) : closes w' = closes w := by
  funext fd
  rw [closes_output w w' more output, List.count_eq_zero.mpr (quiet fd), Nat.add_zero]

/-- The connection is closed, once. -/
theorem closes_drop (w w' : World) (fd : Fd) (more : List Effect)
    (output : w'.output = w.output ++ more ++ [.close fd]) (quiet : ∀ fd, .close fd ∉ more) (other : Fd) :
    closes w' other = closes w other + if other = fd then 1 else 0 := by
  rw [List.append_assoc] at output
  rw [closes_output w w' _ output, List.count_append, List.count_eq_zero.mpr (quiet other),
    Nat.zero_add, List.count_singleton]
  by_cases same : other = fd
  · simp [same]
  · simp [same, Ne.symm same]

theorem close_notMem_delivery (id : Bytes) (fd other : Fd) (heap : Heap StoredMessage)
    (queue : List MessagePtr) : .close other ∉ queue.filterMap (delivery id fd heap) := by
  intro member
  obtain ⟨msg, -, sent⟩ := List.mem_filterMap.mp member
  obtain ⟨m, -, same⟩ := Option.map_eq_some_iff.mp sent
  cases same

/-- No connection is opened, and none is given up. -/
structure NoneClosed (w w' : World) : Prop where
  pollSet : w'.pollSet = w.pollSet
  openFds : w'.openFds = w.openFds
  closed : closes w' = closes w

/-- A connection is closed, once, and the entry at this index goes. -/
structure GivenUp (fd : Fd) (index : Nat) (w w' : World) : Prop where
  pollSet : w'.pollSet = w.pollSet.eraseIdx index
  openFds : w'.openFds = w.openFds.filter (· ≠ fd)
  closed : ∀ other, closes w' other = closes w other + if other = fd then 1 else 0

/-- The request makes its handler close the connection it came on. -/
def givesUp (w : World) (r : TcpRequest) : Bool :=
  match r.type with
  | .exit => true
  | .message => (w.recordOf r.clientId).any TcpClient.connected
  | _ => false

/-- A request closes the connection it came on and takes its entry out, or does neither. -/
theorem request_closes {fd : Fd} {r : TcpRequest} {index : Nat} {fresh : ClientPtr} {w w' : World}
    (outcome : RequestOutcome fd r index fresh w w') :
    givesUp w r = false ∧ NoneClosed w w' ∨ givesUp w r = true ∧ GivenUp fd index w w' := by
  cases outcome with
  | rejected type record connected =>
    exact .inr ⟨by simp [givesUp, type, record.recordOf, connected], rfl, rfl,
      closes_drop _ _ fd [.print _] rfl (by simp)⟩
  | @reconnected p c heap type record lost released =>
    obtain ⟨text, printed⟩ := announceClient_output w r.clientId fd
    let sent := c.lostMessages.filterMap
      (delivery r.clientId fd (announceClient w r.clientId fd).messageHeap)
    refine .inl ⟨by simp [givesUp, type, record.recordOf, lost],
      announceClient_pollSet w r.clientId fd, announceClient_openFds w r.clientId fd,
      closes_same _ _ (.print text :: sent) ?_ ?_⟩
    · simp [reconnected, printed, sent]
    · intro other
      rw [List.mem_cons, not_or]
      exact ⟨by simp, close_notMem_delivery r.clientId fd other _ c.lostMessages⟩
  | registered type new =>
    obtain ⟨text, printed⟩ := announceClient_output w r.clientId fd
    exact .inl ⟨by simp [givesUp, type, World.recordOf, new], announceClient_pollSet w r.clientId fd,
      announceClient_openFds w r.clientId fd, closes_same _ _ [.print text] printed (by simp)⟩
  | subscribed type record vector => exact .inl ⟨by simp [givesUp, type], rfl, rfl, rfl⟩
  | unsubscribed type record vector => exact .inl ⟨by simp [givesUp, type], rfl, rfl, rfl⟩
  | exited type record =>
    exact .inr ⟨by simp [givesUp, type], rfl, rfl, closes_drop _ _ fd [.print _] rfl (by simp)⟩
  | exitedUnknown type new =>
    exact .inr ⟨by simp [givesUp, type], rfl, rfl, closes_drop _ _ fd [] (by simp) (by simp)⟩
  | ignored reason =>
    refine .inl ⟨?_, rfl, rfl, rfl⟩
    rcases reason with ⟨subscribe | unsubscribe, -⟩ | ⟨word, type⟩
    · simp [givesUp, subscribe]
    · simp [givesUp, unsubscribe]
    · simp [givesUp, type]

theorem disconnect_closes {fd : Fd} {index : Nat} {w w' : World}
    (outcome : DisconnectOutcome fd index w w') : GivenUp fd index w w' := by
  cases outcome with
  | marked named record same first => exact ⟨rfl, rfl, closes_drop _ _ fd [] (by simp) (by simp)⟩
  | unmarked reason => exact ⟨rfl, rfl, closes_drop _ _ fd [] (by simp) (by simp)⟩

theorem routed_closes {w w' : World} {message : MessagePtr} {d : Datagram} {topic : Bytes}
    {recipients stored : List ClientPtr} (routed : Routed w message d topic recipients stored w') :
    NoneClosed w w' := by
  refine ⟨routed.pollSet, routed.openFds, closes_same _ _ _ routed.output ?_⟩
  intro fd member
  obtain ⟨p, -, sent⟩ := List.mem_filterMap.mp member
  obtain ⟨c, -, same⟩ := Option.map_eq_some_iff.mp sent
  cases same

/-! ## The balance -/

section

variable {udpFd tcpListenFd : Fd} {past : History} {w w' : World}

/-- Each descriptor has been accepted as often as closed, and once more while it is polled. -/
def Balanced (past : History) (w : World) : Prop :=
  ∀ fd, accepts past fd = closes w fd + if fd ∈ w.connections then 1 else 0

theorem accepts_snoc (x : Transition World Event) (fd : Fd) :
    accepts (past ++ [x]) fd = accepts past fd + accepts [x] fd := List.countP_append

/-- The balance after a step that accepts nothing. -/
private theorem Balanced.quiet {e : Event} (balanced : Balanced past w) (kept : NoneClosed w w')
    (silent : ∀ fd, accepts [⟨w, e, w'⟩] fd = 0) : Balanced (past ++ [⟨w, e, w'⟩]) w' := by
  have connections : w'.connections = w.connections := by
    rw [World.connections, World.connections, kept.pollSet]
  intro fd
  rw [accepts_snoc, silent, Nat.add_zero, balanced fd, kept.closed, connections]

/-- The balance after a step that gives up a connection. -/
private theorem Balanced.drop {e : Event} {fd : Fd} (polled : Polled udpFd tcpListenFd w)
    (known : fd ∈ w.connections) (balanced : Balanced past w)
    (closed : GivenUp fd (w.indexOf fd) w w') (silent : ∀ fd, accepts [⟨w, e, w'⟩] fd = 0) : Balanced (past ++ [⟨w, e, w'⟩]) w' := by
  intro other
  rw [accepts_snoc, silent, Nat.add_zero, balanced other, closed.closed,
    polled.connections_drop known closed.pollSet]
  simp only [polled.distinct.mem_erase_iff]
  by_cases same : other = fd
  · simp [same, known]
  · simp [same]

theorem Balanced.step {e : Event} (polled : Polled udpFd tcpListenFd w) (balanced : Balanced past w)
    (enabled : e.Enabled w) (outcome : Outcome w e w') : Balanced (past ++ [⟨w, e, w'⟩]) w' := by
  cases outcome with
  | @accepted fd peer =>
    -- The new number is not in use, so this occurrence of it is the only one.
    have fresh : fd ∉ w.connections := fun known => enabled ((polled.opened fd).mpr (.inr known))
    intro other
    rw [accepts_snoc, balanced other, polled.connections_accept fd peer]
    by_cases same : other = fd
    · subst same
      simp [accepts, closes, handleNewConnection, fresh]
    · simp [accepts, closes, handleNewConnection, same, Ne.symm same]
  | requested outcome =>
    rcases request_closes outcome with ⟨-, kept⟩ | ⟨-, closed⟩
    · exact balanced.quiet kept fun _ => rfl
    · exact balanced.drop polled enabled.1 closed fun _ => rfl
  | lost outcome => exact balanced.drop polled enabled (disconnect_closes outcome) fun _ => rfl
  | routed routed => exact balanced.quiet (routed_closes routed) fun _ => rfl

theorem balanced_of_run (run : (serverSystem udpFd tcpListenFd).Run past w) : Balanced past w := by
  apply run_induction (P := Balanced) _ _ run
  · intro fd
    simp [accepts, closes, World.connections, World.start]
  · intro past w e w' run healthy balanced enabled outcome
    exact balanced.step (polled_of_run run) enabled outcome

end

/-! ## The exit command -/

private theorem notify_closes (w w' : World) (ptrs : List ClientPtr)
    (notified : ptrs.foldlM notifyClient w = some w') :
    closes w' = closes w ∧ w'.pollSet = w.pollSet := by
  apply foldlM_preserves notifyClient (fun v => closes v = closes w ∧ v.pollSet = w.pollSet) _ ptrs
    w w' ⟨rfl, rfl⟩ notified
  rintro v p v' ⟨closed, pollSet⟩ sent
  simp only [notifyClient, Option.bind_eq_bind, Option.bind_eq_some_iff] at sent
  obtain ⟨c, -, sent⟩ := sent
  split at sent
  · cases sent
    exact ⟨(closes_same v _ [.sendNotice c.fd shutdownNotice] rfl (by simp)).trans closed, pollSet⟩
  · cases sent
    exact ⟨closed, pollSet⟩

private theorem free_output (w w' : World) (ptrs : List ClientPtr)
    (freed : ptrs.foldlM freeClient w = some w') : w'.output = w.output := by
  apply foldlM_preserves freeClient (fun v => v.output = w.output) _ ptrs w w' rfl freed
  intro v p v' same released
  simp only [freeClient, release_eq, Option.bind_eq_bind, Option.bind_eq_some_iff,
    Option.map_eq_some_iff] at released
  obtain ⟨c, -, _, ⟨heap, -, rfl⟩, done⟩ := released
  cases done
  exact same

private theorem closeAll_closes (entries : List PollFd) (w : World) (fd : Fd) (other : fd ≠ stdinFileno) :
    closes (entries.foldl (fun w pfd => if pfd.fd ≠ stdinFileno then w.closeFd pfd.fd else w) w) fd =
      closes w fd + (entries.map PollFd.fd).count fd := by
  induction entries generalizing w with
  | nil => rfl
  | cons entry entries ih =>
    rw [List.foldl_cons, ih, List.map_cons, List.count_cons]
    by_cases here : entry.fd = fd
    · have closed := closes_drop w (w.closeFd entry.fd) entry.fd [] (by simp [World.closeFd, World.emit])
        (by simp) fd
      rw [if_pos (here ▸ other), closed]
      simp [here]
      omega
    · have same : closes (if entry.fd ≠ stdinFileno then w.closeFd entry.fd else w) fd = closes w fd := by
        split
        · have closed := closes_drop w (w.closeFd entry.fd) entry.fd []
            (by simp [World.closeFd, World.emit]) (by simp) fd
          rw [closed, if_neg (Ne.symm here), Nat.add_zero]
        · rfl
      rw [same]
      simp [here]

/-- The exit command closes every polled descriptor but standard input, once. -/
theorem shutdown_closes {w w' : World} (done : shutdown w = some w') (fd : Fd)
    (other : fd ≠ stdinFileno) : closes w' fd = closes w fd + (w.pollSet.map PollFd.fd).count fd := by
  simp only [shutdown, Option.bind_eq_bind, Option.bind_eq_some_iff] at done
  obtain ⟨w₁, notified, freed⟩ := done
  obtain ⟨closed, pollSet⟩ := notify_closes w w₁ _ notified
  rw [closes, free_output _ _ _ freed, ← closes, closeAll_closes _ w₁ fd other, closed, pollSet]

/-! ## Every reachable state -/

/-- Poll set, address table and open descriptors, behind a history. -/
structure InAgreement (udpFd tcpListenFd : Fd) (past : History) (w : World) : Prop where
  fixed : w.pollSet.take 3 = (World.start udpFd tcpListenFd).pollSet
  distinct : w.connections.Nodup
  addresses : ∀ fd, fd ∈ w.connections ↔ (w.state.clientAddresses[fd]?).isSome
  /-- The connections are the accepted descriptors that have not been closed since. -/
  unclosed : ∀ fd, fd ∈ w.connections ↔ closes w fd < accepts past fd
  once : ∀ fd, accepts past fd = closes w fd + if fd ∈ w.connections then 1 else 0
  opened : ∀ fd, fd ∈ w.openFds ↔ fd ∈ fixedFds udpFd tcpListenFd ∨ fd ∈ w.connections

/-- The connection that an event gives up: its own, by a loss, an EXIT or a rejected CONNECT. -/
def givenUp (w : World) : Event → Option Fd
  | .request fd r _ => if givesUp w r then some fd else none
  | .disconnect fd => some fd
  | .accept _ _ | .datagram _ _ _ => none

/-- The entry at this index is that of the connection, and no other entry is. -/
structure OwnEntry (w : World) (fd : Fd) (index : Nat) : Prop where
  behind : 3 ≤ index
  here : (w.pollSet[index]?).map PollFd.fd = some fd
  only : ∀ i, (w.pollSet[i]?).map PollFd.fd = some fd → i = index

/-- What an event does to poll set and descriptors. An entry that goes stands at this index. -/
inductive PollStep (index : Nat) (w w' : World) : Event → Prop
  | kept {e} : givenUp w e = none → (∀ fd peer, e ≠ .accept fd peer) → NoneClosed w w' → PollStep index w w' e
  | pushed {fd peer} : w'.pollSet = w.pollSet ++ [⟨fd, pollIn, 0⟩] → w'.openFds = fd :: w.openFds →
      closes w' = closes w → PollStep index w w' (.accept fd peer)
  | erased {e fd} : givenUp w e = some fd → OwnEntry w fd index → GivenUp fd index w w' →
      PollStep index w w' e

section

variable {udpFd tcpListenFd : Fd} {past : History} {w w' : World}

theorem Polled.ownEntry {fd : Fd} (polled : Polled udpFd tcpListenFd w) (known : fd ∈ w.connections) :
    OwnEntry w fd (w.indexOf fd) :=
  ⟨(polled.place (polled.apart fd known) _ (indexOf_found known)).1, indexOf_found known,
    polled.index_unique known⟩

theorem Polled.pollStep {e : Event} (polled : Polled udpFd tcpListenFd w) (enabled : e.Enabled w)
    (outcome : Outcome w e w') : ∃ index, PollStep index w w' e := by
  cases outcome with
  | accepted => exact ⟨0, .pushed rfl rfl rfl⟩
  | @requested fd r fresh w' outcome =>
    rcases request_closes outcome with ⟨stays, kept⟩ | ⟨goes, closed⟩
    · exact ⟨0, .kept (by simp [givenUp, stays]) (by simp) kept⟩
    · exact ⟨w.indexOf fd, .erased (by simp [givenUp, goes]) (polled.ownEntry enabled.1) closed⟩
  | @lost fd w' outcome =>
    exact ⟨w.indexOf fd, .erased rfl (polled.ownEntry enabled) (disconnect_closes outcome)⟩
  | routed routed => exact ⟨0, .kept rfl (by simp) (routed_closes routed)⟩

/-- The index of an entry that goes is where its connection is found. -/
theorem PollStep.at_entry {index i : Nat} {e : Event} (step : PollStep index w w' e)
    (here : ∀ fd, givenUp w e = some fd → (w.pollSet[i]?).map PollFd.fd = some fd) :
    PollStep i w w' e := by
  cases step with
  | kept stays other kept => exact .kept stays other kept
  | pushed pollSet openFds closed => exact .pushed pollSet openFds closed
  | @erased e fd goes entry closed =>
    obtain rfl := entry.only i (here fd goes)
    exact .erased goes entry closed

theorem inAgreement_of_run (run : (serverSystem udpFd tcpListenFd).Run past w) :
    InAgreement udpFd tcpListenFd past w := by
  have polled := polled_of_run run
  have balanced := balanced_of_run run
  refine ⟨polled.fixed, polled.distinct, polled.addresses, ?_, balanced, polled.opened⟩
  intro fd
  rw [balanced fd]
  split
  next known => simp [known]
  next absent => simp [absent]

/-- At the exit command each accepted descriptor has been closed as often as it has been
accepted. -/
theorem exit_closes (run : (serverSystem udpFd tcpListenFd).Run past w) {line : Bytes}
    (command : stringToArgv line = [ascii "exit"]) :
    ∃ w', handleServerCommand line w = some (w', true) ∧
      ∀ fd ∉ fixedFds udpFd tcpListenFd, closes w' fd = accepts past fd := by
  have polled := polled_of_run run
  obtain ⟨w', done, -⟩ := shutdown_total (healthy_of_run run)
  refine ⟨w', by simp [handleServerCommand, command, done], ?_⟩
  intro fd accepted
  have other : fd ≠ stdinFileno := by
    rintro rfl
    exact accepted (by simp [fixedFds])
  -- The fixed entries have other descriptors, and the rest are the connections.
  have fixed : (w.pollSet.take 3).map PollFd.fd = fixedFds udpFd tcpListenFd := by
    rw [polled.fixed]
    rfl
  have polls : (w.pollSet.map PollFd.fd).count fd = if fd ∈ w.connections then 1 else 0 := by
    rw [← List.take_append_drop 3 w.pollSet, List.map_append, List.count_append, fixed,
      List.count_eq_zero.mpr accepted, Nat.zero_add, ← World.connections, polled.distinct.count]
  rw [shutdown_closes done fd other, polls, balanced_of_run run fd]

end

end PubSub.Properties
