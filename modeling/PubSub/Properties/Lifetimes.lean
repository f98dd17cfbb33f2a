import PubSub.Properties.References

/-!
# The life of a stored message

From the first queue it is put into to the last one it leaves, or to the exit of
the server, which releases every queue.
-/
namespace PubSub.Properties

open General Std

/-! ## The exit command -/

theorem freeClient_eq (w : World) (p : ClientPtr) (c : TcpClient) (cell : w.clientHeap.read p = some c) :
    freeClient w p = (releaseMessages w.messageHeap c.lostMessages).map fun heap =>
      { w with messageHeap := heap, clientHeap := w.clientHeap.free p } := by
  simp only [freeClient, cell, release_eq, Option.bind_eq_bind, Option.bind_some]
  cases releaseMessages w.messageHeap c.lostMessages <;> rfl

/-- The loop that frees the clients releases the queues of those that are left. -/
theorem freeClients (queue : ClientPtr → List MessagePtr) (rest : List ClientPtr) (w : World)
    (distinct : rest.Nodup)
    (alive : ∀ q ∈ rest, ∃ c, w.clientHeap.read q = some c ∧ c.lostMessages = queue q)
    (exact : Heap.Exact StoredMessage.c w.messageHeap (Heap.heldBy queue rest))
    (collected : Heap.Collected w.messageHeap (Heap.heldBy queue rest))
    (balanced : w.messageHeap.Balanced) :
    ∃ w', rest.foldlM freeClient w = some w' ∧ (∀ p, w'.messageHeap.read p = none) ∧
      w'.messageHeap.Balanced := by
  -- The clients still to be freed hold all the references that are left.
  induction rest generalizing w with
  | nil =>
    refine ⟨w, rfl, ?_, balanced⟩
    -- Nobody is left to hold a reference, so nothing is alive.
    intro p
    cases read : w.messageHeap.read p with
    | none => rfl
    | some m => exact absurd rfl (collected p (by rw [read]; rfl))
  | cons q rest ih =>
    rw [List.nodup_cons] at distinct
    rw [List.forall_mem_cons] at alive
    obtain ⟨⟨c, cell, held⟩, others⟩ := alive
    have given : ∀ msg, Heap.heldBy queue (q :: rest) msg =
        Heap.heldBy queue rest msg + c.lostMessages.count msg := by
      intro msg
      rw [held, Heap.heldBy, Heap.heldBy, List.map_cons, List.sum_cons, Nat.add_comm]
    obtain ⟨heap, released, all⟩ :=
      exact.releaseAll StoredMessage.dropRef (fun _ => rfl) c.lostMessages _ _ _ given
    -- The queue of the first client goes, those of the others are untouched.
    have first : freeClient w q =
        some { w with messageHeap := heap, clientHeap := w.clientHeap.free q } := by
      rw [freeClient_eq w q c cell, releaseMessages, released]
      rfl
    rw [List.foldlM_cons, first]
    apply ih { w with messageHeap := heap, clientHeap := w.clientHeap.free q } distinct.2
    · intro r member
      obtain ⟨d, read, queued⟩ := others r member
      refine ⟨d, ?_, queued⟩
      rw [Heap.read_free, if_neg, read]
      rintro rfl
      exact distinct.1 member
    · exact all.exact
    · exact all.collected collected
    · exact all.balanced balanced

/-- Closing descriptors is not about the heaps. -/
private theorem closeAll_heaps (entries : List PollFd) (w : World) :
    (entries.foldl (fun w pfd => if pfd.fd ≠ stdinFileno then w.closeFd pfd.fd else w) w).state =
        w.state ∧
      (entries.foldl (fun w pfd => if pfd.fd ≠ stdinFileno then w.closeFd pfd.fd else w) w).clientHeap =
        w.clientHeap ∧
      (entries.foldl (fun w pfd => if pfd.fd ≠ stdinFileno then w.closeFd pfd.fd else w) w).messageHeap =
        w.messageHeap := by
  induction entries generalizing w with
  | nil => exact ⟨rfl, rfl, rfl⟩
  | cons entry entries ih =>
    rw [List.foldl_cons]
    split
    · exact ih (w.closeFd entry.fd)
    · exact ih w

private theorem notifyClients (w : World) (alive : ∀ q ∈ w.clientPtrs, (w.clientHeap.read q).isSome) :
    ∃ w', w.clientPtrs.foldlM notifyClient w = some w' ∧ w'.state = w.state ∧
      w'.clientHeap = w.clientHeap ∧ w'.messageHeap = w.messageHeap := by
  apply foldlM_keeps notifyClient (fun _ w' => w'.state = w.state ∧ w'.clientHeap = w.clientHeap ∧
    w'.messageHeap = w.messageHeap) w.clientPtrs [] w ⟨rfl, rfl, rfl⟩
  rintro _ w' q member ⟨state, records, messages⟩
  obtain ⟨c, cell⟩ := Option.isSome_iff_exists.mp (alive q member)
  simp only [notifyClient, records, cell, Option.bind_eq_bind, Option.bind_some]
  split
  · exact ⟨_, rfl, state, records, messages⟩
  · exact ⟨_, rfl, state, records, messages⟩

/-- A healthy server shuts down and leaves no message behind. -/
theorem shutdown_total {w : World} (healthy : Healthy w) :
    ∃ w', shutdown w = some w' ∧ (∀ p, w'.messageHeap.read p = none) ∧ w'.messageHeap.Balanced := by
  have alive : ∀ q ∈ w.clientPtrs, (w.clientHeap.read q).isSome :=
    fun q member => (mem_clientPtrs healthy.tables q).mp member
  -- Sending the notices and closing the descriptors leaves both heaps alone.
  obtain ⟨w₁, notified, state, records, messages⟩ := notifyClients w alive
  obtain ⟨state', records', messages'⟩ := closeAll_heaps w₁.pollSet w₁
  simp only [shutdown, notified, Option.bind_eq_bind, Option.bind_some]
  generalize w₁.pollSet.foldl
    (fun w pfd => if pfd.fd ≠ stdinFileno then w.closeFd pfd.fd else w) w₁ = w₂ at *
  have holders : w₂.clientPtrs = w.clientPtrs := by
    rw [World.clientPtrs, World.clientPtrs, state', state]
  rw [holders]
  apply freeClients w.queue w.clientPtrs w₂ (clientPtrs_nodup healthy.tables)
  · intro q member
    obtain ⟨c, cell⟩ := Option.isSome_iff_exists.mp (alive q member)
    exact ⟨c, by rw [records', records, cell], (queue_of_read cell).symm⟩
  · rw [messages', messages]
    exact healthy.references.exact
  · rw [messages', messages]
    exact healthy.references.collected
  · rw [messages', messages]
    exact healthy.references.balanced

/-! ## Every reachable state -/

/-- The counters and lifetimes of the messages in a state. -/
structure Counted (w : World) : Prop where
  counter : ∀ q ∈ w.clientPtrs, ∀ p ∈ w.queue q, ∃ m, w.messageHeap.read p = some m ∧
    m.c = (w.clientPtrs.countP fun q => p ∈ w.queue q)
  distinct : ∀ q ∈ w.clientPtrs, (w.queue q).Nodup
  alive : ∀ p, (w.messageHeap.read p).isSome ↔ ∃ q ∈ w.clientPtrs, p ∈ w.queue q
  /-- Each allocation of a message that is gone has been undone by one `delete`. -/
  once : ∀ p, w.messageHeap.news p =
    w.messageHeap.deletes p + if (w.messageHeap.read p).isSome then 1 else 0

theorem Healthy.counted {w : World} (healthy : Healthy w) : Counted w := by
  have distinct : ∀ q ∈ w.clientPtrs, (w.queue q).Nodup := by
    intro q member
    obtain ⟨c, cell⟩ := Option.isSome_iff_exists.mp ((mem_clientPtrs healthy.tables q).mp member)
    rw [queue_of_read cell]
    exact healthy.references.distinct q c cell
  refine ⟨?_, distinct, ?_, healthy.references.balanced⟩
  · intro q member p queued
    have referenced : refs w p ≠ 0 := (Heap.heldBy_ne_zero p).mpr ⟨q, member, queued⟩
    obtain ⟨m, read⟩ := Option.isSome_iff_exists.mp (healthy.references.exact.live p referenced)
    refine ⟨m, read, ?_⟩
    rw [healthy.references.exact.counts p m read, refs, Heap.heldBy_eq_countP distinct]
  · intro p
    have held : refs w p ≠ 0 ↔ ∃ q ∈ w.clientPtrs, p ∈ w.queue q := Heap.heldBy_ne_zero p
    rw [← held]
    exact ⟨healthy.references.collected p, healthy.references.exact.live p⟩

section

variable {udpFd tcpListenFd : Fd} {past : History} {w : World}

/-- Reference counts are exact in every reachable state, no step follows a pointer to
a deleted message, and the exit command deletes what is left. -/
theorem messages_counted (run : (serverSystem udpFd tcpListenFd).Run past w) :
    Counted w ∧ (∀ e, e.Enabled w → ∃ w', w.dispatch e = some w') ∧
      ∀ line, stringToArgv line = [ascii "exit"] →
        ∃ w', handleServerCommand line w = some (w', true) ∧
          ∀ p, w'.messageHeap.read p = none ∧ w'.messageHeap.news p = w'.messageHeap.deletes p := by
  have healthy := healthy_of_run run
  refine ⟨healthy.counted, fun e enabled => dispatch_total healthy enabled, ?_⟩
  intro line command
  obtain ⟨w', done, gone, balanced⟩ := shutdown_total healthy
  refine ⟨w', by simp [handleServerCommand, command, done], ?_⟩
  intro p
  refine ⟨gone p, ?_⟩
  have books := balanced p
  rw [gone p] at books
  simpa using books

end

/-! ## A run with a shared message -/

/-- A record with these fields, for examples. -/
def exampleRequest (command : Command) (id topic : String) (sf : UInt8) : TcpRequest where
  bytes :=
    let named := store (List.replicate sizeofTcpRequest 0) offsetId (ascii id)
    let typed := store (store named offsetType (leBytes 4 command.word)) offsetTopic (ascii topic)
    (store typed offsetSf [sf] ++ List.replicate sizeofTcpRequest 0).take sizeofTcpRequest
  size := by simp

/-- A datagram with this text as its topic and no payload to speak of. -/
def exampleDatagram (topic : String) : Datagram where
  sender := default
  payload := (ascii topic ++ List.replicate 51 0).take 51
  fits := by simp [messagesSize]

def sharedMessage : List Event :=
  [.accept 5 default, .request 5 (exampleRequest .message "A" "" 0) 1,
    .request 5 (exampleRequest .subscribe "A" "a/b" 1) 9,
    .accept 6 default, .request 6 (exampleRequest .message "B" "" 0) 2,
    .request 6 (exampleRequest .subscribe "B" "a/+" 1) 9,
    .request 5 (exampleRequest .exit "A" "" 0) 9, .disconnect 6,
    .datagram (exampleDatagram "a/b") (fun _ => 7) 100]

theorem messages_counted_shared : ∃ past w, (serverSystem 3 4).Run past w ∧ Counted w ∧
    (w.messageHeap.read 100).map StoredMessage.c = some 2 := by
  obtain ⟨past, w, run, shared⟩ := System.exists_run (S := serverSystem 3 4) sharedMessage
    (fun _ (w : World) => (w.messageHeap.read 100).map StoredMessage.c = some 2) (by decide)
  exact ⟨past, w, run, (messages_counted run).1, of_decide_eq_true shared⟩

end PubSub.Properties
