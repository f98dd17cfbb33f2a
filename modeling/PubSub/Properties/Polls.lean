import PubSub.Properties.References

/-!
# The poll set

Connections are found by their place in a vector that shrinks and grows, and a
second table has to change with it. `Polled` says what the two have in common.
-/
namespace PubSub.Properties

open General Std

/-- The descriptors of the entries that are never removed. -/
def fixedFds (udpFd tcpListenFd : Fd) : List Fd := [udpFd, tcpListenFd, stdinFileno]

structure Polled (udpFd tcpListenFd : Fd) (w : World) : Prop where
  fixed : w.pollSet.take 3 = (World.start udpFd tcpListenFd).pollSet
  distinct : w.connections.Nodup
  apart : ∀ fd ∈ w.connections, fd ∉ fixedFds udpFd tcpListenFd
  addresses : ∀ fd, fd ∈ w.connections ↔ (w.state.clientAddresses[fd]?).isSome
  opened : ∀ fd, fd ∈ w.openFds ↔ fd ∈ fixedFds udpFd tcpListenFd ∨ fd ∈ w.connections

/-- The poll set and the tables that go with it are untouched. -/
structure SamePolls (w w' : World) : Prop where
  pollSet : w'.pollSet = w.pollSet
  addresses : w'.state.clientAddresses = w.state.clientAddresses
  openFds : w'.openFds = w.openFds

/-- A connection has been given up. -/
structure Dropped (fd : Fd) (w w' : World) : Prop where
  pollSet : w'.pollSet = w.pollSet.eraseIdx (w.indexOf fd)
  addresses : w'.state.clientAddresses = w.state.clientAddresses.erase fd
  openFds : w'.openFds = w.openFds.filter (· ≠ fd)

section

variable {udpFd tcpListenFd : Fd} {w w' : World} {fd : Fd}

theorem Polled.start : Polled udpFd tcpListenFd (.start udpFd tcpListenFd) := by
  refine ⟨rfl, ?_, ?_, ?_, ?_⟩ <;> simp [World.connections, World.start, fixedFds]

theorem SamePolls.connections (same : SamePolls w w') : w'.connections = w.connections := by
  rw [World.connections, World.connections, same.pollSet]

theorem Polled.congr (polled : Polled udpFd tcpListenFd w) (same : SamePolls w w') :
    Polled udpFd tcpListenFd w' := by
  obtain ⟨fixed, distinct, apart, addresses, opened⟩ := polled
  refine ⟨?_, ?_, ?_, ?_, ?_⟩ <;> simpa only [same.connections, same.pollSet, same.addresses, same.openFds]

/-! ## Giving up a connection -/

theorem eraseIdx_findIdx {α : Type} (p : α → Bool) (xs : List α) :
    xs.eraseIdx (xs.findIdx p) = xs.eraseP p := by
  induction xs with
  | nil => rfl
  | cons x xs ih =>
    rw [List.findIdx_cons, List.eraseP_cons]
    cases p x with
    | true => rfl
    | false => simpa using ih

/-- The entry that goes is that of the connection, and the fixed entries stay. -/
theorem Polled.pollSet_drop (polled : Polled udpFd tcpListenFd w) (known : fd ∈ w.connections) :
    w.pollSet.eraseIdx (w.indexOf fd) =
      (World.start udpFd tcpListenFd).pollSet ++ (w.pollSet.drop 3).eraseP (·.fd = fd) := by
  have other : ∀ entry ∈ (World.start udpFd tcpListenFd).pollSet, ¬ decide (entry.fd = fd) = true := by
    intro entry member
    have outside := polled.apart fd known
    simp only [World.start, List.mem_cons, List.not_mem_nil, or_false] at member
    simp only [fixedFds, List.mem_cons, List.not_mem_nil, or_false, not_or] at outside
    rcases member with rfl | rfl | rfl
    · simpa using Ne.symm outside.1
    · simpa using Ne.symm outside.2.1
    · simpa using Ne.symm outside.2.2
  -- The search does not stop at a fixed entry.
  rw [World.indexOf, eraseIdx_findIdx]
  conv_lhs => rw [← List.take_append_drop 3 w.pollSet, polled.fixed]
  rw [List.eraseP_append_right _ other]

theorem Polled.connections_drop (polled : Polled udpFd tcpListenFd w) (known : fd ∈ w.connections)
    (erased : w'.pollSet = w.pollSet.eraseIdx (w.indexOf fd)) :
    w'.connections = w.connections.erase fd := by
  have matched : (fun entry : PollFd => decide (entry.fd = fd)) = (· == fd) ∘ PollFd.fd := by
    funext entry
    simp [Bool.beq_eq_decide_eq]
  rw [World.connections, erased, polled.pollSet_drop known, World.connections,
    List.erase_eq_eraseP', List.eraseP_map, matched]
  rfl

theorem Polled.drop (polled : Polled udpFd tcpListenFd w) (known : fd ∈ w.connections)
    (dropped : Dropped fd w w') : Polled udpFd tcpListenFd w' := by
  have connections := polled.connections_drop known dropped.pollSet
  have left : ∀ other, other ∈ w'.connections ↔ other ≠ fd ∧ other ∈ w.connections := by
    intro other
    rw [connections, polled.distinct.mem_erase_iff]
  constructor
  · rw [dropped.pollSet, polled.pollSet_drop known]
    rfl
  · rw [connections]
    exact polled.distinct.erase fd
  · intro other member
    exact polled.apart other ((left other).mp member).2
  · intro other
    rw [left, dropped.addresses, lookup_erase, polled.addresses]
    by_cases same : other = fd <;> simp [same]
  · intro other
    have outside := polled.apart fd known
    rw [left, dropped.openFds, List.mem_filter, polled.opened]
    by_cases same : other = fd
    · subst same
      simp [outside]
    · simp [same]

/-! ## The place of a connection -/

/-- An entry with any other descriptor than the fixed ones stands behind these. -/
theorem Polled.place (polled : Polled udpFd tcpListenFd w) (other : fd ∉ fixedFds udpFd tcpListenFd)
    (i : Nat) (here : (w.pollSet[i]?).map PollFd.fd = some fd) :
    3 ≤ i ∧ w.connections[i - 3]? = some fd := by
  have behind : 3 ≤ i := by
    by_contra less
    have fixed : w.pollSet[i]? = (World.start udpFd tcpListenFd).pollSet[i]? := by
      rw [← polled.fixed, List.getElem?_take_of_lt (by omega)]
    rw [fixed] at here
    obtain ⟨entry, found, same⟩ := Option.map_eq_some_iff.mp here
    rw [← same] at other
    exact other (List.mem_map_of_mem (List.mem_of_getElem? found))
  refine ⟨behind, ?_⟩
  rw [World.connections, List.getElem?_map, List.getElem?_drop, Nat.add_sub_cancel' behind, here]

theorem indexOf_found (known : fd ∈ w.connections) :
    (w.pollSet[w.indexOf fd]?).map PollFd.fd = some fd := by
  obtain ⟨entry, member, same⟩ := List.mem_map.mp known
  have inside : w.indexOf fd < w.pollSet.length :=
    List.findIdx_lt_length_of_exists ⟨entry, List.mem_of_mem_drop member, decide_eq_true same⟩
  have hit : decide (w.pollSet[w.indexOf fd].fd = fd) = true :=
    List.findIdx_getElem (p := fun entry : PollFd => decide (entry.fd = fd)) (w := inside)
  rw [List.getElem?_eq_getElem inside, Option.map_some, of_decide_eq_true hit]

/-- The loop's own index is the only one at which it can meet the connection. -/
theorem Polled.index_unique (polled : Polled udpFd tcpListenFd w) (known : fd ∈ w.connections) (i : Nat)
    (here : (w.pollSet[i]?).map PollFd.fd = some fd) : i = w.indexOf fd := by
  have other := polled.apart fd known
  obtain ⟨first, entry⟩ := polled.place other i here
  obtain ⟨second, found⟩ := polled.place other _ (indexOf_found known)
  have inside : i - 3 < w.connections.length := (List.getElem?_eq_some_iff.mp entry).1
  have same := (List.getElem?_inj inside polled.distinct).mp (entry.trans found.symm)
  omega

/-! ## Every reachable state -/

theorem Polled.length_ge (polled : Polled udpFd tcpListenFd w) : 3 ≤ w.pollSet.length := by
  have three := congrArg List.length polled.fixed
  simp only [World.start, List.length_take, List.length_cons, List.length_nil] at three
  omega

theorem Polled.connections_accept (polled : Polled udpFd tcpListenFd w) (fd : Fd) (peer : SockAddr) :
    (handleNewConnection fd peer w).connections = w.connections ++ [fd] := by
  simp [World.connections, handleNewConnection, List.drop_append_of_le_length polled.length_ge]

theorem Polled.accept (polled : Polled udpFd tcpListenFd w) (unused : fd ∉ w.openFds) (peer : SockAddr) :
    Polled udpFd tcpListenFd (handleNewConnection fd peer w) := by
  have connections := polled.connections_accept fd peer
  -- A descriptor that is not open is no connection and none of the fixed ones.
  rw [polled.opened, not_or] at unused
  constructor
  · simp only [handleNewConnection, List.take_append_of_le_length polled.length_ge]
    exact polled.fixed
  · rw [connections]
    simpa using polled.distinct.concat unused.2
  · intro other member
    rw [connections, List.mem_append, List.mem_singleton] at member
    rcases member with old | rfl
    · exact polled.apart other old
    · exact unused.1
  · intro other
    rw [connections]
    simp only [handleNewConnection, lookup_insert, List.mem_append, List.mem_singleton, polled.addresses]
    by_cases same : other = fd <;> simp [same]
  · intro other
    rw [connections]
    simp only [handleNewConnection, List.mem_append, List.mem_cons, List.not_mem_nil, polled.opened,
      or_false]
    constructor
    · rintro (new | old | old)
      · exact .inr (.inr new)
      · exact .inl old
      · exact .inr (.inl old)
    · rintro (old | old | new)
      · exact .inr (.inl old)
      · exact .inr (.inr old)
      · exact .inl new

theorem announceClient_polls (polled : Polled udpFd tcpListenFd w) (known : fd ∈ w.connections)
    (clientId : Bytes) : SamePolls w (announceClient w clientId fd) :=
  ⟨announceClient_pollSet .., announceClient_addresses _ _ _ ((polled.addresses fd).mp known),
    announceClient_openFds ..⟩

/-- A request gives up the connection it came on, or none. -/
theorem request_polls {r : TcpRequest} {fresh : ClientPtr} (polled : Polled udpFd tcpListenFd w)
    (known : fd ∈ w.connections) (outcome : RequestOutcome fd r (w.indexOf fd) fresh w w') :
    SamePolls w w' ∨ Dropped fd w w' := by
  cases outcome with
  | rejected type record connected => exact .inr ⟨rfl, rfl, rfl⟩
  | reconnected type record lost released =>
    -- The address of a connection is known, so `operator[]` inserts nothing.
    obtain ⟨pollSet, addresses, openFds⟩ := announceClient_polls polled known r.clientId
    exact .inl ⟨pollSet, addresses, openFds⟩
  | registered type new =>
    obtain ⟨pollSet, addresses, openFds⟩ := announceClient_polls polled known r.clientId
    exact .inl ⟨pollSet, addresses, openFds⟩
  | subscribed type record vector => exact .inl ⟨rfl, rfl, rfl⟩
  | unsubscribed type record vector => exact .inl ⟨rfl, rfl, rfl⟩
  | exited type record => exact .inr ⟨rfl, rfl, rfl⟩
  | exitedUnknown type new => exact .inr ⟨rfl, rfl, rfl⟩
  | ignored reason => exact .inl ⟨rfl, rfl, rfl⟩

theorem disconnect_polls (outcome : DisconnectOutcome fd (w.indexOf fd) w w') : Dropped fd w w' := by
  cases outcome with
  | marked named record same first => exact ⟨rfl, rfl, rfl⟩
  | unmarked reason => exact ⟨rfl, rfl, rfl⟩

theorem Polled.step {e : Event} (polled : Polled udpFd tcpListenFd w) (enabled : e.Enabled w)
    (outcome : Outcome w e w') : Polled udpFd tcpListenFd w' := by
  cases outcome with
  | accepted => exact polled.accept enabled _
  | requested outcome =>
    rcases request_polls polled enabled.1 outcome with same | dropped
    · exact polled.congr same
    · exact polled.drop enabled.1 dropped
  | lost outcome => exact polled.drop enabled (disconnect_polls outcome)
  | routed routed => exact polled.congr ⟨routed.pollSet, by rw [routed.state], routed.openFds⟩

theorem polled_of_run {past : History} (run : (serverSystem udpFd tcpListenFd).Run past w) :
    Polled udpFd tcpListenFd w := by
  apply run_induction (P := fun _ w => Polled udpFd tcpListenFd w) _ _ run
  · exact Polled.start
  · intro past w e w' run healthy polled enabled outcome
    exact polled.step enabled outcome

end

end PubSub.Properties
