import PubSub.Properties.Delivery
import PubSub.Properties.Sessions

/-!
# What a step writes

Nothing is made up on the way: the body of every message, stored or sent, is that of a
datagram that has arrived, and it is sent on the connection of a client's session. So the
bodies that are counted as written for a client are those written to its connections.
-/
namespace PubSub.Properties

open General Std

theorem arrived_snoc (past : History) (x : Transition World Event) :
    arrived (past ++ [x]) = arrived past ++ arrived [x] := List.filterMap_append

/-- All stored messages have arrived. -/
def Sourced (past : History) (w : World) : Prop :=
  ∀ msg m, w.messageHeap.read msg = some m → m.buff ∈ arrived past

/-- What a step to this state adds to the output. -/
structure Additions (past : History) (w w' : World) (more : List Effect) : Prop where
  output : w'.output = w.output ++ more
  sized : ∀ id fd len buff, .deliver id fd len buff ∈ more → len = (buff.length : Int)
  sourced : ∀ id fd len buff, .deliver id fd len buff ∈ more → buff ∈ arrived past
  addressed : ∀ id fd len buff, .deliver id fd len buff ∈ more → session w' id = some (fd, true)
  quiet : ∀ fd record, .sendNotice fd record ∉ more

section

variable {past : History} {w w' : World} {more : List Effect}

/-- Nothing but closes and console output. -/
theorem Additions.silent (output : w'.output = w.output ++ more)
    (none : ∀ effect ∈ more, (∃ fd, effect = .close fd) ∨ ∃ text, effect = .print text) :
    Additions past w w' more := by
  have absent : ∀ id fd len buff, .deliver id fd len buff ∉ more := by
    intro id fd len buff member
    rcases none _ member with ⟨other, same⟩ | ⟨text, same⟩ <;> cases same
  refine ⟨output, ?_, ?_, ?_, ?_⟩
  · exact fun id fd len buff member => absurd member (absent id fd len buff)
  · exact fun id fd len buff member => absurd member (absent id fd len buff)
  · exact fun id fd len buff member => absurd member (absent id fd len buff)
  · intro fd record member
    rcases none _ member with ⟨other, same⟩ | ⟨text, same⟩ <;> cases same

theorem additions_reconnected (tables : Tables w) (sourced : Sourced past w) {id : Bytes} {fd : Fd}
    {p : ClientPtr} {c : TcpClient} (record : w.Record id p c) (heap : Heap StoredMessage) :
    ∃ more, Additions past w (reconnected w id fd p c heap) more := by
  obtain ⟨text, printed⟩ := announceClient_output w id fd
  have sent : (reconnected w id fd p c heap).output =
      w.output ++ (.print text :: c.lostMessages.filterMap (delivery id fd w.messageHeap)) := by
    simp only [reconnected, printed, announceClient_messageHeap, List.append_assoc, List.singleton_append]
  have online : session (reconnected w id fd p c heap) id = some (fd, true) := by
    rw [session_update (recordOf_reconnected tables record fd heap), Function.update_self]
  -- What is sent is a message of the queue, to the client that has come back.
  have origin : ∀ id' fd' len buff,
      .deliver id' fd' len buff ∈ c.lostMessages.filterMap (delivery id fd w.messageHeap) →
      id' = id ∧ fd' = fd ∧ ∃ msg m, w.messageHeap.read msg = some m ∧ m.len = len ∧ m.buff = buff := by
    intro id' fd' len buff member
    obtain ⟨msg, -, found⟩ := List.mem_filterMap.mp member
    obtain ⟨m, read, same⟩ := Option.map_eq_some_iff.mp found
    cases same
    exact ⟨rfl, rfl, msg, m, read, rfl, rfl⟩
  have tail : ∀ effect, effect ∈ Effect.print text :: c.lostMessages.filterMap (delivery id fd w.messageHeap) →
      (∀ text, effect ≠ .print text) → effect ∈ c.lostMessages.filterMap (delivery id fd w.messageHeap) := by
    intro effect member other
    rcases List.mem_cons.mp member with same | later
    · exact absurd same (other text)
    · exact later
  refine ⟨_, sent, ?_, ?_, ?_, ?_⟩
  · intro id' fd' len buff member
    obtain ⟨-, -, msg, m, read, rfl, rfl⟩ := origin id' fd' len buff (tail _ member (by simp))
    exact m.sized
  · intro id' fd' len buff member
    obtain ⟨-, -, msg, m, read, rfl, rfl⟩ := origin id' fd' len buff (tail _ member (by simp))
    exact sourced msg m read
  · intro id' fd' len buff member
    obtain ⟨rfl, rfl, -⟩ := origin id' fd' len buff (tail _ member (by simp))
    exact online
  · intro fd' record' member
    obtain ⟨msg, -, found⟩ := List.mem_filterMap.mp (tail _ member (by simp))
    obtain ⟨m, read, same⟩ := Option.map_eq_some_iff.mp found
    cases same

theorem additions_request (tables : Tables w) (sourced : Sourced past w) {fd : Fd} {r : TcpRequest}
    {index : Nat} {fresh : ClientPtr} (outcome : RequestOutcome fd r index fresh w w') :
    Sourced past w' ∧ ∃ more, Additions past w w' more := by
  cases outcome with
  | rejected type record connected =>
    refine ⟨sourced, _, .silent (List.append_assoc _ _ _) ?_⟩
    simp
  | @reconnected p c heap type record lost released =>
    refine ⟨?_, additions_reconnected tables sourced record heap⟩
    intro msg m read
    -- Releasing messages leaves the bodies of the others alone.
    obtain ⟨old, found, same⟩ := Heap.releaseAll_keeps StoredMessage.dropRef_content _ _ _ released msg m read
    simp only [StoredMessage.content, Prod.mk.injEq] at same
    rw [← same.2]
    exact sourced msg old found
  | registered type new =>
    obtain ⟨text, printed⟩ := announceClient_output w r.clientId fd
    refine ⟨?_, _, .silent printed ?_⟩
    · intro msg m read
      rw [registered_messageHeap] at read
      exact sourced msg m read
    · simp
  | subscribed type record vector =>
    exact ⟨sourced, [], .silent (List.append_nil _).symm (by simp)⟩
  | unsubscribed type record vector =>
    exact ⟨sourced, [], .silent (List.append_nil _).symm (by simp)⟩
  | exited type record =>
    refine ⟨sourced, _, .silent (List.append_assoc _ _ _) ?_⟩
    simp
  | exitedUnknown type new => exact ⟨sourced, [.close fd], .silent rfl (by simp)⟩
  | ignored reason => exact ⟨sourced, [], .silent (List.append_nil _).symm (by simp)⟩

theorem additions_routed (tables : Tables w) {d : Datagram} {stale : Nat → UInt8} {message : MessagePtr}
    {recipients stored : List ClientPtr} (here : d.body ∈ arrived past) (sourced : Sourced past w)
    (routed : Routed w message d (currentTopic stale d.payload) recipients stored w') :
    Sourced past w' ∧ ∃ more, Additions past w w' more := by
  constructor
  · intro msg m read
    rw [routed.messages] at read
    split at read
    · rw [Heap.read_free] at read
      split at read
      · cases read
      next other =>
        rw [Heap.read_alloc, if_neg other] at read
        exact sourced msg m read
    · rw [Heap.read_alloc] at read
      split at read
      · cases read
        exact here
      · exact sourced msg m read
  · have origin : ∀ effect ∈ recipients.filterMap (sendTo w d.message), ∃ c : TcpClient,
        session w c.id = some (c.fd, true) ∧ effect = .deliver c.id c.fd d.message.len d.body := by
      intro effect member
      obtain ⟨p, reached, found⟩ := List.mem_filterMap.mp member
      obtain ⟨c, cell, same⟩ := Option.map_eq_some_iff.mp found
      obtain ⟨e, cell', connected, -⟩ := (routed.reached p).mp reached
      rw [cell, Option.some.injEq] at cell'
      subst cell'
      refine ⟨c, ?_, same.symm⟩
      rw [session_of_record ⟨tables.only p c cell, cell⟩, connected]
    refine ⟨_, routed.output, ?_, ?_, ?_, ?_⟩
    · intro id fd len buff member
      obtain ⟨c, -, same⟩ := origin _ member
      cases same
      exact d.message.sized
    · intro id fd len buff member
      obtain ⟨c, -, same⟩ := origin _ member
      cases same
      exact here
    · intro id fd len buff member
      obtain ⟨c, online, same⟩ := origin _ member
      cases same
      rw [routed_session routed]
      exact online
    · intro fd record member
      obtain ⟨c, -, same⟩ := origin _ member
      cases same

theorem Sourced.later (sourced : Sourced past w) (x : Transition World Event) : Sourced (past ++ [x]) w := by
  intro msg m read
  rw [arrived_snoc, List.mem_append]
  exact .inl (sourced msg m read)

theorem Sourced.step {e : Event} (sourced : Sourced past w) (healthy : Healthy w)
    (outcome : Outcome w e w') :
    Sourced (past ++ [⟨w, e, w'⟩]) w' ∧ ∃ more, Additions (past ++ [⟨w, e, w'⟩]) w w' more := by
  have still := sourced.later ⟨w, e, w'⟩
  cases outcome with
  | accepted => exact ⟨still, [], .silent (List.append_nil _).symm (by simp)⟩
  | requested outcome => exact additions_request healthy.tables still outcome
  | lost outcome =>
    cases outcome with
    | marked named record same first => exact ⟨still, _, .silent rfl (by simp)⟩
    | unmarked reason => exact ⟨still, _, .silent rfl (by simp)⟩
  | @routed d stale message recipients stored w' routed =>
    apply additions_routed healthy.tables _ still routed
    rw [arrived_snoc, List.mem_append]
    exact .inr (by simp [arrived])

end

theorem sourced_of_run {udpFd tcpListenFd : Fd} {past : History} {w : World}
    (run : (serverSystem udpFd tcpListenFd).Run past w) : Sourced past w := by
  apply run_induction (P := Sourced) _ _ run
  · intro msg m read
    cases read
  · intro past w e w' run healthy sourced enabled outcome
    exact (sourced.step healthy outcome).1

/-! ## Where bodies go -/

/-- What a step has added to the output. -/
def newOutput (x : Transition World Event) : List Effect := x.after.output.drop x.before.output.length

/-- A body for an id goes to the descriptor that the id is connected on. -/
def ToSession (x : Transition World Event) : Prop :=
  ∀ id fd len buff, .deliver id fd len buff ∈ newOutput x → session x.after id = some (fd, true)

/-- A body for an id goes to an open connection with a client of this id at its other end. -/
def ToOwner (seen : History) (x : Transition World Event) : Prop :=
  ∀ id fd len buff, .deliver id fd len buff ∈ newOutput x →
    fd ∈ x.after.openFds ∧ ownerOf (hear (heard seen) x.event) fd = some id

section

variable {udpFd tcpListenFd : Fd} {past : History} {w : World}

theorem Additions.newOutput_eq {e : Event} {v : World} {more : List Effect} {seen : History}
    (additions : Additions seen w v more) : newOutput ⟨w, e, v⟩ = more := by
  rw [newOutput, additions.output, List.drop_left]

theorem toSession_of_run (run : (serverSystem udpFd tcpListenFd).Run past w) :
    ∀ x ∈ past, ToSession x := by
  apply run_induction (P := fun past _ => ∀ x ∈ past, ToSession x) _ _ run
  · exact fun _ member => absurd member List.not_mem_nil
  · intro past w e w' run healthy earlier enabled outcome x member
    rcases List.mem_append.mp member with old | new
    · exact earlier x old
    · obtain rfl := List.mem_singleton.mp new
      obtain ⟨more, additions⟩ := ((sourced_of_run run).step healthy outcome).2
      intro id fd len buff sent
      rw [additions.newOutput_eq] at sent
      exact additions.addressed id fd len buff sent

theorem toOwner_of_run (run : (serverSystem udpFd tcpListenFd).Run past w) (disciplined : Disciplined past)
    (clean : CleanRun past) : Along ToOwner past := by
  revert disciplined clean
  apply run_induction (P := fun past _ => Disciplined past → CleanRun past → Along ToOwner past) _ _ run
  · exact fun _ _ => trivial
  · intro past w e w' run healthy earlier enabled outcome disciplined clean
    obtain ⟨before, follows⟩ := (along_snoc past _).mp disciplined
    obtain ⟨quiet, last⟩ := (along_snoc past _).mp clean
    refine (along_snoc past _).mpr ⟨earlier before quiet, ?_⟩
    have polled := polled_of_run run
    have sessions := (sessions_of_run run before quiet).step healthy polled enabled follows last outcome
    obtain ⟨more, additions⟩ := ((sourced_of_run run).step healthy outcome).2
    intro id fd len buff sent
    rw [additions.newOutput_eq] at sent
    -- A session has an open connection, and its requests name the session's id.
    obtain ⟨known, owner⟩ := (sessions.paired fd id).mp (additions.addressed id fd len buff sent)
    refine ⟨((polled.step enabled outcome).opened fd).mpr (.inr known), ?_⟩
    rw [sessions.first fd known, heard_snoc] at owner
    exact owner

/-- Every id gets, or has waiting, exactly the datagrams it wanted when they arrived; and
what is written for it goes to the descriptor that it is connected on at that moment. -/
theorem delivered_in_order (run : (serverSystem udpFd tcpListenFd).Run past w)
    (full : ∀ x ∈ past, FullTopic x.event) (id : Bytes) :
    delivered id w.output ++ queued w id = wanted past id ∧ (wanted past id).Sublist (arrived past) ∧
      ∀ x ∈ past, ToSession x :=
  ⟨delivered_of_run run full id, wanted_sublist past id, toSession_of_run run⟩

end

/-- A subscription with store and forward over two connections. -/
def storedAndForwarded : List Event :=
  [.accept 5 default, .request 5 (exampleRequest .message "A" "" 0) 1,
    .request 5 (exampleRequest .subscribe "A" "a" 1) 9,
    .datagram (exampleDatagram "a") (fun _ => 7) 100, .disconnect 5,
    .datagram (exampleDatagram "a") (fun _ => 7) 100,
    .datagram (exampleDatagram "b") (fun _ => 7) 101, .accept 6 default,
    .request 6 (exampleRequest .message "A" "" 0) 9, .disconnect 6,
    .datagram (exampleDatagram "a") (fun _ => 7) 101]

theorem delivered_in_order_stored : ∃ past w, (serverSystem 3 4).Run past w ∧
    delivered (ascii "A") w.output ++ queued w (ascii "A") = wanted past (ascii "A") ∧
    (delivered (ascii "A") w.output).length = 2 ∧ (queued w (ascii "A")).length = 1 := by
  obtain ⟨past, w, run, seen⟩ := System.exists_run (S := serverSystem 3 4) storedAndForwarded
    (fun past (w : World) => (∀ x ∈ past, FullTopic x.event) ∧
      (delivered (ascii "A") w.output).length = 2 ∧ (queued w (ascii "A")).length = 1) (by decide)
  obtain ⟨full, counts⟩ := of_decide_eq_true seen
  exact ⟨past, w, run, (delivered_in_order run full (ascii "A")).1, counts⟩

end PubSub.Properties
