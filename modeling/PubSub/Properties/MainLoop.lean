import PubSub.Properties.Rounds
import PubSub.Properties.Accounts
import PubSub.Properties.Writes

/-!
# The main loop is a broker

The loop walks an index over a poll set that its own handlers change, and leaves entries
out of a sweep where a request has removed one. Whatever `poll` reports, each of its
rounds is at most one event of the server, and the server is a broker.
-/
namespace PubSub.Properties

open General Std

variable (udpFd tcpListenFd : Fd)

/-- The events that the rounds of the loop have been, with the states of the server. -/
def loopTrace (past : List (Transition Turn LoopEvent)) : History :=
  (loopRefinement udpFd tcpListenFd).trace past

section

variable {udpFd tcpListenFd} {past : List (Transition Turn LoopEvent)} {t : Turn}

theorem loop_run (run : (loopSystem udpFd tcpListenFd).Run past t) :
    (serverSystem udpFd tcpListenFd).Run (loopTrace udpFd tcpListenFd past) (quiet t.world) :=
  (loopRefinement udpFd tcpListenFd).run run

/-- As long as system calls succeed, no round of the main loop goes wrong, whatever `poll`
reports and whichever connections come and go. Where the peers behave as subscribers and
every event is clean, the loop is where its requests, losses and datagrams take the broker,
the loss of a connection being the leave of the client at its other end; what has been
written for a client, and to an open connection of its own, and what is waiting for it are
what the broker owes it. -/
theorem loop_refines_broker (run : (loopSystem udpFd tcpListenFd).Run past t) :
    (∀ a : Answers, t.idx < t.world.pollSet.length → a.Fit t.world →
        ∃ t', t.iterate udpFd tcpListenFd a = some t') ∧
      (Disciplined (loopTrace udpFd tcpListenFd past) → CleanRun (loopTrace udpFd tcpListenFd past) →
        mailbox t.world = Broker.after Covers (actions (loopTrace udpFd tcpListenFd past)) ∧
        (∀ id, (mailbox t.world id).promised = owed Covers (actions (loopTrace udpFd tcpListenFd past)) id) ∧
        Along ToOwner (loopTrace udpFd tcpListenFd past)) := by
  have steady := steady_of_run run
  constructor
  · intro a inside fit
    obtain ⟨t', served, -⟩ := serve_outcome steady.healthy.loud fit t.world.pollSet[t.idx] steady.running
    exact ⟨t', by rw [Turn.iterate, List.getElem?_eq_getElem inside, Option.bind_some, served]⟩
  · intro disciplined clean
    have quietly := mailbox_of_run (loop_run run) disciplined clean
    -- The mailboxes do not look at what `poll` has written.
    have broker : mailbox t.world = Broker.after Covers (actions (loopTrace udpFd tcpListenFd past)) := quietly
    refine ⟨broker, ?_, toOwner_of_run (loop_run run) disciplined clean⟩
    intro id
    rw [broker]
    exact (Broker.after_spec _ id).2

end

/-- One sweep, with the entry that is readable in it. -/
def sweepOver (polled : List Fd) (readable : Fd) (answers : List Answers) : List LoopEvent :=
  .poll (polled.map fun fd => ⟨fd, pollIn, if fd = readable then pollIn else 0⟩) :: answers.map .round

/-- A client connects and subscribes, and there is a datagram for it. -/
def fourSweeps : List LoopEvent :=
  let accepting := { reading none with accepted := 5 }
  let later (request : Option TcpRequest) := { reading request with fresh := 2 }
  sweepOver [3, 4, 0] 4 [accepting, accepting, reading none, reading none] ++
    sweepOver [3, 4, 0, 5] 5 (List.replicate 4 (reading (some (exampleRequest .message "A" "" 0)))) ++
    sweepOver [3, 4, 0, 5] 5 (List.replicate 4 (later (some (exampleRequest .subscribe "A" "" 0)))) ++
    sweepOver [3, 4, 0, 5] 3 (List.replicate 4 (later none))

theorem loop_refines_broker_fourSweeps : ∃ past t, (loopSystem 3 4).Run past t ∧ past.length = 20 ∧
    mailbox t.world = Broker.after Covers (actions (loopTrace 3 4 past)) ∧
    (mailbox t.world (ascii "A")).sent.length = 1 := by
  obtain ⟨past, t, run, seen⟩ := System.exists_run (S := loopSystem 3 4) fourSweeps
    (fun past (t : Turn) => Disciplined (loopTrace 3 4 past) ∧ CleanRun (loopTrace 3 4 past) ∧
      past.length = 20 ∧ (mailbox t.world (ascii "A")).sent.length = 1) (by decide)
  obtain ⟨disciplined, clean, rounds, sent⟩ := of_decide_eq_true seen
  exact ⟨past, t, run, rounds, ((loop_refines_broker run).2 disciplined clean).1, sent⟩

end PubSub.Properties
