import PubSub.Properties.Coverage
import PubSub.Properties.Writes

/-!
# What clients can rely on

The server is a message broker as long as its record of the sessions stays right. So what
a client gets depends on its own requests and losses and the publications only, and nobody
gets what the documentation does not give them. In any run, the order in which the loop
serves two clients is of no consequence.
-/
namespace PubSub.Properties

open General Std

section

variable {udpFd tcpListenFd : Fd} {past : History} {w : World}

/-- Where the peers behave as subscribers and every step is clean, the server is where its
requests and datagrams take the broker, the loss of a connection being the leave of the
client at its other end. What has been written for a client, and to an open connection of
its own, and what is waiting for it are what the broker owes it. -/
theorem server_refines_broker (run : (serverSystem udpFd tcpListenFd).Run past w)
    (disciplined : Disciplined past) (clean : CleanRun past) :
    mailbox w = Broker.after Covers (actions past) ∧
      (∀ id, (mailbox w id).promised = owed Covers (actions past) id) ∧ Along ToOwner past := by
  rw [mailbox_of_run run disciplined clean]
  exact ⟨rfl, fun id => (Broker.after_spec _ id).2, toOwner_of_run run disciplined clean⟩

/-- Two such runs that are the same to one client leave it with the same account and have
written the same messages for it, whatever the other clients, the descriptors and the
addresses were. Its own losses are those of the connections that it has opened. -/
theorem mailbox_noninterference {udpFd' tcpListenFd' : Fd} {past' : History} {w' : World}
    (run : (serverSystem udpFd tcpListenFd).Run past w) (disciplined : Disciplined past)
    (clean : CleanRun past) (run' : (serverSystem udpFd' tcpListenFd').Run past' w')
    (disciplined' : Disciplined past') (clean' : CleanRun past') (id : Bytes)
    (same : (actions past).filter (Action.concerns id) = (actions past').filter (Action.concerns id)) :
    mailbox w id = mailbox w' id := by
  rw [mailbox_of_run run disciplined clean, mailbox_of_run run' disciplined' clean']
  exact Broker.after_congr id _ _ same

/-- A client that stores messages for one datagram and gets a second one at once, with
another client around. -/
def inCompany : List Event :=
  [.accept 5 default, .request 5 (exampleRequest .message "A" "" 0) 1, .accept 6 default,
    .request 6 (exampleRequest .message "B" "" 0) 2,
    .request 6 (exampleRequest .subscribe "B" "+" 1) 9,
    .request 5 (exampleRequest .subscribe "A" "a" 1) 9, .disconnect 5,
    .datagram (exampleDatagram "a") (fun _ => 7) 100, .disconnect 6, .accept 5 default,
    .request 5 (exampleRequest .message "A" "" 0) 9]

/-- The same for the first client, alone and on other descriptors. -/
def byItself : List Event :=
  [.accept 8 default, .request 8 (exampleRequest .message "A" "" 0) 3,
    .request 8 (exampleRequest .subscribe "A" "a" 1) 9,
    .request 8 (exampleRequest .exit "A" "" 0) 9,
    .datagram (exampleDatagram "a") (fun _ => 0) 7, .accept 9 default,
    .request 9 (exampleRequest .message "A" "" 0) 9]

/-- What the first client and the publisher have done in both. -/
def seenByA : List ServerAction :=
  [.wish (ascii "A") .connect, .wish (ascii "A") (.subscribe (ascii "a") true),
    .wish (ascii "A") .leave, .publish (ascii "a") (exampleDatagram "a").body,
    .wish (ascii "A") .connect]

theorem server_refines_broker_inCompany : ∃ past w, (serverSystem 3 4).Run past w ∧
    mailbox w = Broker.after Covers (actions past) ∧ (mailbox w (ascii "A")).sent.length = 1 := by
  obtain ⟨past, w, run, seen⟩ := System.exists_run (S := serverSystem 3 4) inCompany
    (fun past (w : World) => Disciplined past ∧ CleanRun past ∧
      (mailbox w (ascii "A")).sent.length = 1) (by decide)
  obtain ⟨disciplined, clean, sent⟩ := of_decide_eq_true seen
  exact ⟨past, w, run, (server_refines_broker run disciplined clean).1, sent⟩

theorem mailbox_noninterference_alone : ∃ past w past' w', (serverSystem 3 4).Run past w ∧
    (serverSystem 6 7).Run past' w' ∧ past.length = 11 ∧ past'.length = 7 ∧
    mailbox w (ascii "A") = mailbox w' (ascii "A") := by
  obtain ⟨past, w, run, seen⟩ := System.exists_run (S := serverSystem 3 4) inCompany
    (fun past _ => Disciplined past ∧ CleanRun past ∧ past.length = 11 ∧
      (actions past).filter (Action.concerns (ascii "A")) = seenByA) (by decide)
  obtain ⟨past', w', run', seen'⟩ := System.exists_run (S := serverSystem 6 7) byItself
    (fun past _ => Disciplined past ∧ CleanRun past ∧ past.length = 7 ∧
      (actions past).filter (Action.concerns (ascii "A")) = seenByA) (by decide)
  obtain ⟨disciplined, clean, long, actions⟩ := of_decide_eq_true seen
  obtain ⟨disciplined', clean', short, actions'⟩ := of_decide_eq_true seen'
  exact ⟨past, w, past', w', run, run', long, short, mailbox_noninterference run disciplined clean run'
    disciplined' clean' (ascii "A") (actions.trans actions'.symm)⟩

/-! ## The order of service -/

/-- A request uses up no address but its own. -/
theorem request_unused {fd : Fd} {r : TcpRequest} {index : Nat} {fresh q : ClientPtr} {w' : World}
    (outcome : RequestOutcome fd r index fresh w w') (unused : w.clientHeap.read q = none)
    (other : q ≠ fresh) : w'.clientHeap.read q = none := by
  have write : ∀ (p : ClientPtr) (c c' : TcpClient), w.clientHeap.read p = some c →
      (w.clientHeap.set p c').read q = none := by
    intro p c c' cell
    rw [Heap.read_set, if_neg (Ne.symm (Heap.ne_of_read cell unused)), unused]
  cases outcome with
  | rejected | exitedUnknown | ignored => exact unused
  | reconnected type record lost released =>
    simp only [reconnected, announceClient_clientHeap]
    exact write _ _ _ record.cell
  | registered type new => rw [registered_read, if_neg other, unused]
  | subscribed type record | unsubscribed type record | exited type record =>
    exact write _ _ _ record.cell

/-- What another connection has sent can still be read behind a request. -/
theorem request_enabled {fd fd' : Fd} {r r' : TcpRequest} {fresh fresh' : ClientPtr} {w' : World}
    (polled : Polled udpFd tcpListenFd w) (enabled : Event.Enabled w (.request fd r fresh))
    (outcome : RequestOutcome fd r (w.indexOf fd) fresh w w')
    (later : Event.Enabled w (.request fd' r' fresh')) (connections : fd' ≠ fd)
    (addresses : fresh' ≠ fresh) : Event.Enabled w' (.request fd' r' fresh') := by
  refine ⟨?_, request_unused outcome later.2 addresses⟩
  rcases request_polls polled enabled.1 outcome with same | dropped
  · rw [same.connections]
    exact later.1
  · rw [polled.connections_drop enabled.1 dropped.pollSet, polled.distinct.mem_erase_iff]
    exact ⟨connections, later.1⟩

/-- Requests of two clients on two connections can be served in either order, and it makes
no difference to anybody's account or messages. -/
theorem requests_commute (run : (serverSystem udpFd tcpListenFd).Run past w) {fd fd' : Fd}
    {r r' : TcpRequest} {fresh fresh' : ClientPtr}
    (first : Event.Enabled w (.request fd r fresh)) (second : Event.Enabled w (.request fd' r' fresh'))
    (clients : r.clientId ≠ r'.clientId) (connections : fd ≠ fd') (addresses : fresh ≠ fresh') :
    ∃ x y v v', w.dispatch (.request fd r fresh) = some x ∧ Event.Enabled x (.request fd' r' fresh') ∧
      x.dispatch (.request fd' r' fresh') = some v ∧
      w.dispatch (.request fd' r' fresh') = some y ∧ Event.Enabled y (.request fd r fresh) ∧
      y.dispatch (.request fd r fresh) = some v' ∧ mailbox v = mailbox v' := by
  have healthy := healthy_of_run run
  have polled := polled_of_run run
  -- Each of the two is possible, and leaves the other one possible.
  have either : ∀ {fd fd' : Fd} {r r' : TcpRequest} {fresh fresh' : ClientPtr},
      Event.Enabled w (.request fd r fresh) → Event.Enabled w (.request fd' r' fresh') → fd' ≠ fd →
      fresh' ≠ fresh → ∃ x v, w.dispatch (.request fd r fresh) = some x ∧
        Event.Enabled x (.request fd' r' fresh') ∧ x.dispatch (.request fd' r' fresh') = some v ∧
        mailbox v = granted r' (granted r (mailbox w)) := by
    intro fd fd' r r' fresh fresh' enabled later apart new
    obtain ⟨x, stepped⟩ := dispatch_total healthy enabled
    have outcome := handleClientRequest_outcome fd r _ fresh w x stepped
    have after := request_enabled polled enabled outcome later apart new
    have healthy' := healthy.step enabled (.requested outcome)
    obtain ⟨v, stepped'⟩ := dispatch_total healthy' after
    have outcome' := handleClientRequest_outcome fd' r' _ fresh' x v stepped'
    refine ⟨x, v, stepped, after, stepped', ?_⟩
    rw [mailbox_request healthy' after.2 outcome', mailbox_request healthy enabled.2 outcome]
  obtain ⟨x, v, one, enabled, two, forth⟩ := either first second (Ne.symm connections) (Ne.symm addresses)
  obtain ⟨y, v', one', enabled', two', back⟩ := either second first connections addresses
  refine ⟨x, y, v, v', one, enabled, two, one', enabled', two', ?_⟩
  rw [forth, back]
  simp only [granted]
  cases wishOf r with
  | none => cases wishOf r' <;> rfl
  | some wish =>
    cases wishOf r' with
    | none => rfl
    | some wish' => exact Broker.step_comm Covers _ _ _ clients wish wish'

theorem requests_commute_two : ∃ past w x y v v', (serverSystem 3 4).Run past w ∧
    w.dispatch (.request 5 (exampleRequest .exit "A" "" 0) 8) = some x ∧
    x.dispatch (.request 6 (exampleRequest .subscribe "B" "b" 0) 9) = some v ∧
    w.dispatch (.request 6 (exampleRequest .subscribe "B" "b" 0) 9) = some y ∧
    y.dispatch (.request 5 (exampleRequest .exit "A" "" 0) 8) = some v' ∧ mailbox v = mailbox v' := by
  obtain ⟨past, w, run, ready⟩ := System.exists_run (S := serverSystem 3 4) twoClients
    (fun _ (w : World) => Event.Enabled w (.request 5 (exampleRequest .exit "A" "" 0) 8) ∧
      Event.Enabled w (.request 6 (exampleRequest .subscribe "B" "b" 0) 9)) (by decide)
  obtain ⟨first, second⟩ := of_decide_eq_true ready
  obtain ⟨x, y, v, v', one, _, two, one', _, two', same⟩ :=
    requests_commute run first second (by decide) (by decide) (by decide)
  exact ⟨past, w, x, y, v, v', run, one, two, one', two', same⟩

/-! ## The documented service -/

/-- A published topic and a pattern subscribed to that do not both have a level `*`. -/
def Apart : ServerAction → ServerAction → Prop
  | .publish topic _, .wish _ (.subscribe pattern _) =>
    starLevel ∈ topic.splitOn slash → starLevel ∉ pattern.splitOn slash
  | _, _ => True

instance : ∀ a b, Decidable (Apart a b)
  | .publish topic _, .wish _ (.subscribe pattern _) =>
    inferInstanceAs (Decidable (starLevel ∈ topic.splitOn slash → starLevel ∉ pattern.splitOn slash))
  | .publish _ _, .wish _ .connect | .publish _ _, .wish _ (.unsubscribe _)
  | .publish _ _, .wish _ .leave | .publish _ _, .publish _ _
  | .wish _ _, _ => inferInstanceAs (Decidable True)

def StarsApart (actions : List ServerAction) : Prop := ∀ a ∈ actions, ∀ b ∈ actions, Apart a b

instance : DecidablePred StarsApart :=
  fun actions => inferInstanceAs (Decidable (∀ a ∈ actions, ∀ b ∈ actions, Apart a b))

/-- Under the same conditions every client gets at most what the documented wildcards owe it,
in their order; where no topic with a level `*` meets a pattern with one, exactly that. -/
theorem documented_service (run : (serverSystem udpFd tcpListenFd).Run past w)
    (disciplined : Disciplined past) (clean : CleanRun past) :
    (∀ id, (mailbox w id).promised.Sublist (owed Documented (actions past) id)) ∧
      (StarsApart (actions past) → mailbox w = Broker.after Documented (actions past) ∧
        ∀ id, (mailbox w id).promised = owed Documented (actions past) id) := by
  rw [mailbox_of_run run disciplined clean]
  constructor
  · intro id
    rw [(Broker.after_spec _ id).2]
    exact owed_sublist covers_documented _ id
  · intro apart
    have agree : ∀ topic pattern, (∃ message, Action.publish topic message ∈ actions past) →
        (∃ id flag, Action.wish id (.subscribe pattern flag) ∈ actions past) →
        (Covers topic pattern ↔ Documented topic pattern) := by
      rintro topic pattern ⟨message, sent⟩ ⟨id, flag, known⟩
      exact covers_iff_documented topic pattern (apart _ sent _ known)
    have same : (Broker.after Covers (actions past) : Broker Bytes Bytes Bytes) =
        Broker.after Documented (actions past) :=
      Broker.after_agree _ _ agree _ (fun topic message sent => ⟨message, sent⟩)
        fun id pattern flag known => ⟨id, flag, known⟩
    rw [same]
    exact ⟨rfl, fun id => (Broker.after_spec _ id).2⟩

end

theorem documented_service_inCompany : ∃ past w, (serverSystem 3 4).Run past w ∧
    mailbox w = Broker.after Documented (actions past) ∧ (mailbox w (ascii "A")).sent.length = 1 := by
  obtain ⟨past, w, run, seen⟩ := System.exists_run (S := serverSystem 3 4) inCompany
    (fun past (w : World) => Disciplined past ∧ CleanRun past ∧ StarsApart (actions past) ∧
      (mailbox w (ascii "A")).sent.length = 1) (by decide)
  obtain ⟨disciplined, clean, apart, sent⟩ := of_decide_eq_true seen
  exact ⟨past, w, run, ((documented_service run disciplined clean).2 apart).1, sent⟩

end PubSub.Properties
