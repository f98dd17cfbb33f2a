import PubSub.Server.Sweep
import PubSub.Properties.Descriptors

/-!
# What one sweep dispatches

The loop takes its index back where it removes an entry itself, but not where a request
has removed it. Behind such an entry the loop goes on with the entry after the next.
-/
namespace PubSub.Properties

open General Std

variable (udpFd tcpListenFd : Fd)

/-- The entries a sweep has to dispatch. -/
def ready (pfd : PollFd) : Bool :=
  if pfd.failed then decide (pfd.fd ∉ fixedFds udpFd tcpListenFd) else pfd.readable

/-- The entry is removed by a request. -/
def removes (a : Answers) (w : World) (pfd : PollFd) : Bool :=
  !pfd.failed && pfd.readable && decide (pfd.fd ∉ fixedFds udpFd tcpListenFd) &&
    a.received.any (givesUp w)

/-- No request removes an entry in front of a ready one. -/
def Careful (x : Transition Turn Answers) : Prop :=
  ¬ ((x.before.world.pollSet[x.before.idx]?).any (removes udpFd tcpListenFd x.event x.before.world) = true ∧
    (x.before.world.pollSet[x.before.idx + 1]?).any (ready udpFd tcpListenFd) = true)

instance (x : Transition Turn Answers) : Decidable (Careful udpFd tcpListenFd x) := by
  unfold Careful
  infer_instance

/-! ## One round -/

variable {udpFd tcpListenFd}

theorem mem_fixedFds (fd : Fd) : fd ∈ fixedFds udpFd tcpListenFd ↔
    ¬ (fd ≠ tcpListenFd ∧ fd ≠ udpFd ∧ fd ≠ stdinFileno) := by
  simp only [fixedFds, List.mem_cons, List.not_mem_nil, or_false]
  constructor
  · rintro (udp | listen | stdin) ⟨notListen, notUdp, notStdin⟩
    · exact notUdp udp
    · exact notListen listen
    · exact notStdin stdin
  · intro other
    by_contra outside
    simp only [not_or] at outside
    exact other ⟨outside.2.1, outside.1, outside.2.2⟩

/-- What a round can do at an entry. -/
inductive RoundOutcome (udpFd tcpListenFd : Fd) (a : Answers) (t : Turn) (pfd : PollFd) : Turn → Prop
  | passed : ready udpFd tcpListenFd pfd = false → RoundOutcome udpFd tcpListenFd a t pfd t.pass
  | kept {w more} : ready udpFd tcpListenFd pfd = true → removes udpFd tcpListenFd a t.world pfd = false →
      Healthy w → w.pollSet = t.world.pollSet ++ more → more.length ≤ 1 →
      (∀ entry ∈ more, entry.revents = 0) →
      RoundOutcome udpFd tcpListenFd a t pfd (t.advance pfd w)
  | closed {w} : ready udpFd tcpListenFd pfd = true → removes udpFd tcpListenFd a t.world pfd = false →
      Healthy w → w.pollSet = t.world.pollSet.eraseIdx t.idx →
      RoundOutcome udpFd tcpListenFd a t pfd (t.stay pfd w)
  | removed {w} : ready udpFd tcpListenFd pfd = true → removes udpFd tcpListenFd a t.world pfd = true →
      Healthy w → w.pollSet = t.world.pollSet.eraseIdx t.idx →
      RoundOutcome udpFd tcpListenFd a t pfd (t.advance pfd w)
  | left {w} : ready udpFd tcpListenFd pfd = true →
      RoundOutcome udpFd tcpListenFd a t pfd { t.advance pfd w with exited := true }

theorem ready_of_failed {pfd : PollFd} (failed : pfd.failed = true)
    (connection : pfd.fd ∉ fixedFds udpFd tcpListenFd) : ready udpFd tcpListenFd pfd = true := by
  rw [ready, if_pos failed, decide_eq_true connection]

theorem ready_of_readable {pfd : PollFd} (sound : pfd.failed = false) (readable : pfd.readable = true) :
    ready udpFd tcpListenFd pfd = true := by
  rw [ready, if_neg (by simp [sound]), readable]

/-- Entries that are never removed are not removed by a request. -/
theorem removes_fixed (a : Answers) (w : World) {pfd : PollFd} (fixed : pfd.fd ∈ fixedFds udpFd tcpListenFd) :
    removes udpFd tcpListenFd a w pfd = false := by
  simp [removes, fixed]

section

variable {t : Turn} {a : Answers} (healthy : Healthy t.world) (fit : a.Fit t.world) (pfd : PollFd)
include healthy

theorem disconnect_round (fd : Fd) : ∃ w, handleClientDisconnect fd t.idx t.world = some w ∧ Healthy w ∧
    w.pollSet = t.world.pollSet.eraseIdx t.idx := by
  obtain ⟨w, done⟩ := handleClientDisconnect_total healthy fd t.idx
  have outcome := handleClientDisconnect_outcome fd t.idx _ w done
  refine ⟨w, done, ⟨healthy.tables.disconnect outcome, healthy.references.disconnect outcome⟩, ?_⟩
  cases outcome with
  | marked named record same first => rfl
  | unmarked reason => rfl

include fit

/-- The round of a connection that is readable. -/
theorem connection_round (sound : pfd.failed = false) (readable : pfd.readable = true)
    (connection : pfd.fd ∉ fixedFds udpFd tcpListenFd) :
    ∃ t', t.serve udpFd tcpListenFd a pfd = some t' ∧ RoundOutcome udpFd tcpListenFd a t pfd t' := by
  have due : ready udpFd tcpListenFd pfd = true := ready_of_readable sound readable
  obtain ⟨notListen, notUdp, notStdin⟩ := not_not.mp (mt (mem_fixedFds pfd.fd).mpr connection)
  simp only [Turn.serve]
  rw [if_neg (by simp [sound]), if_neg (by simp [readable]), if_neg notUdp, if_neg notListen,
    if_neg notStdin]
  cases received : a.received with
  | none =>
    obtain ⟨w, done, kept, erased⟩ := disconnect_round healthy pfd.fd
    exact ⟨_, by rw [done]; rfl, .closed due (by simp [removes, received]) kept erased⟩
  | some r =>
    obtain ⟨w, done⟩ := handleClientRequest_total healthy pfd.fd r t.idx a.fresh
    have outcome := handleClientRequest_outcome pfd.fd r t.idx a.fresh _ w done
    have kept : Healthy w := ⟨healthy.tables.request fit.fresh outcome,
      healthy.references.request healthy.tables fit.fresh outcome⟩
    have removal : removes udpFd tcpListenFd a t.world pfd = givesUp t.world r := by
      simp [removes, sound, readable, connection, received]
    refine ⟨t.advance pfd w, by simp [done], ?_⟩
    -- The loop takes the index back for an end of file, but not for a request.
    rcases request_closes outcome with ⟨stays, quiet⟩ | ⟨goes, closed⟩
    · have same : w.pollSet = t.world.pollSet ++ [] := by rw [quiet.pollSet, List.append_nil]
      exact .kept due (removal.trans stays) kept same (by simp) (by simp)
    · exact .removed due (removal.trans goes) kept closed.pollSet

/-- The round of a fixed entry that is readable. -/
theorem fixed_round (sound : pfd.failed = false) (readable : pfd.readable = true)
    (fixed : pfd.fd ∈ fixedFds udpFd tcpListenFd) (running : t.exited = false) :
    ∃ t', t.serve udpFd tcpListenFd a pfd = some t' ∧ RoundOutcome udpFd tcpListenFd a t pfd t' := by
  have due : ready udpFd tcpListenFd pfd = true := ready_of_readable sound readable
  have stays := removes_fixed a t.world fixed
  simp only [Turn.serve]
  rw [if_neg (by simp [sound]), if_neg (by simp [readable])]
  split
  · obtain ⟨w, recipients, stored, done, routed⟩ :=
      processUdpMessage_total healthy a.stale a.message a.datagram fit.message
    have kept : Healthy w := ⟨healthy.tables.congr routed.sameTables,
      healthy.references.routed healthy.tables fit.message routed⟩
    have same : w.pollSet = t.world.pollSet ++ [] := by rw [routed.pollSet, List.append_nil]
    exact ⟨_, by rw [done]; rfl, .kept due stays kept same (by simp) (by simp)⟩
  next notUdp =>
    split
    · have kept : Healthy (handleNewConnection a.accepted a.peer t.world) :=
        ⟨healthy.tables.congr ⟨rfl, rfl, fun _ => rfl⟩, healthy.references.congr ⟨rfl, fun _ => rfl, rfl⟩⟩
      exact ⟨_, rfl, .kept due stays kept rfl (by simp) (by simp)⟩
    next notListen =>
      have stdin : pfd.fd = stdinFileno := by
        simp only [fixedFds, List.mem_cons, List.not_mem_nil, or_false] at fixed
        exact (fixed.resolve_left notUdp).resolve_left notListen
      rw [if_pos stdin, handleServerCommand]
      split
      · obtain ⟨w, done, -⟩ := shutdown_total healthy
        exact ⟨_, by rw [done]; rfl, .left due⟩
      · have same : t.world.pollSet = t.world.pollSet ++ [] := (List.append_nil _).symm
        have shape : some { t.advance pfd t.world with exited := false } =
            some (t.advance pfd t.world) := by simp [Turn.advance, running]
        exact ⟨_, shape, .kept due stays healthy same (by simp) (by simp)⟩

/-- Every round gets through, with one of these outcomes. -/
theorem serve_outcome (running : t.exited = false) :
    ∃ t', t.serve udpFd tcpListenFd a pfd = some t' ∧ RoundOutcome udpFd tcpListenFd a t pfd t' := by
  cases failed : pfd.failed with
  | true =>
    simp only [Turn.serve]
    rw [if_pos failed]
    split
    next connection =>
      have other : pfd.fd ∉ fixedFds udpFd tcpListenFd := by
        rw [mem_fixedFds]
        exact not_not.mpr connection
      obtain ⟨w, done, kept, erased⟩ := disconnect_round healthy pfd.fd
      exact ⟨_, by rw [done]; rfl, .closed (ready_of_failed failed other) (by simp [removes, failed])
        kept erased⟩
    next fixed =>
      refine ⟨_, rfl, .passed ?_⟩
      rw [ready, if_pos failed, decide_eq_false (not_not.mpr ((mem_fixedFds pfd.fd).mpr fixed))]
  | false =>
    cases readable : pfd.readable with
    | false =>
      have pass : t.serve udpFd tcpListenFd a pfd = some t.pass := by
        simp [Turn.serve, failed, readable]
      exact ⟨_, pass, .passed (by simp [ready, failed, readable])⟩
    | true =>
      by_cases fixed : pfd.fd ∈ fixedFds udpFd tcpListenFd
      · exact fixed_round healthy fit pfd failed readable fixed running
      · exact connection_round healthy fit pfd failed readable fixed

end

/-! ## The entries behind and ahead of the index -/

/-- The poll set at the start is `front ++ rest`. The loop is through with `front`; ahead of
it are `rest` and the entries of connections accepted since. -/
structure Walked (udpFd tcpListenFd : Fd) (polls : List PollFd) (turns : List (Transition Turn Answers))
    (t : Turn) (front rest added : List PollFd) : Prop where
  whole : polls = front ++ rest
  ahead : t.world.pollSet.drop t.idx = rest ++ added
  idle : ∀ entry ∈ added, entry.revents = 0
  served : t.dispatched.Sublist (front.filter (ready udpFd tcpListenFd))
  complete : t.dispatched.length = (front.filter (ready udpFd tcpListenFd)).length ↔
    Along (fun _ x => Careful udpFd tcpListenFd x) turns
  bound : turns.length + (2 * rest.length + added.length) ≤ 2 * polls.length

section

variable {polls : List PollFd} {turns : List (Transition Turn Answers)} {t t' : Turn} {a : Answers}
  {pfd : PollFd} {front rest added : List PollFd}

/-- A round takes some entries off the front of the rest and dispatches some of them. -/
theorem Walked.step (eaten new added' : List PollFd)
    (walked : Walked udpFd tcpListenFd polls turns t front (eaten ++ rest) added)
    (ahead : t'.world.pollSet.drop t'.idx = rest ++ added')
    (idle : ∀ entry ∈ added', entry.revents = 0) (dispatched : t'.dispatched = t.dispatched ++ new)
    (served : new.Sublist (eaten.filter (ready udpFd tcpListenFd)))
    (complete : new.length = (eaten.filter (ready udpFd tcpListenFd)).length ↔
      Careful udpFd tcpListenFd ⟨t, a, t'⟩)
    (fewer : added'.length + 1 ≤ 2 * eaten.length + added.length) :
    Walked udpFd tcpListenFd polls (turns ++ [⟨t, a, t'⟩]) t' (front ++ eaten) rest added' := by
  have before := walked.served.length_le
  have here := served.length_le
  refine ⟨?_, ahead, idle, ?_, ?_, ?_⟩
  · rw [walked.whole, List.append_assoc]
  · rw [dispatched, List.filter_append]
    exact walked.served.append served
  · -- Neither part can have more than there is, so the sum is complete only if both are.
    rw [along_snoc, ← walked.complete, ← complete, dispatched, List.filter_append, List.length_append,
      List.length_append]
    omega
  · have bound := walked.bound
    simp only [List.length_append, List.length_cons, List.length_nil] at bound ⊢
    omega

theorem ready_idle (idle : pfd.revents = 0) : ready udpFd tcpListenFd pfd = false := by
  simp [ready, PollFd.failed, PollFd.readable, idle]

theorem stays_of_idle {w : World} (idle : ready udpFd tcpListenFd pfd = false) :
    removes udpFd tcpListenFd a w pfd = false := by
  by_contra removal
  simp only [removes, Bool.not_eq_false, Bool.and_eq_true, Bool.not_eq_true'] at removal
  rw [ready_of_readable removal.1.1.1 removal.1.1.2] at idle
  cases idle

/-- Where no request removes the entry, nothing is skipped. -/
theorem careful_of_stays (here : t.world.pollSet[t.idx]? = some pfd)
    (stays : removes udpFd tcpListenFd a t.world pfd = false) : Careful udpFd tcpListenFd ⟨t, a, t'⟩ := by
  simp [Careful, here, stays]

theorem careful_of_removal (here : t.world.pollSet[t.idx]? = some pfd)
    (removal : removes udpFd tcpListenFd a t.world pfd = true) :
    Careful udpFd tcpListenFd ⟨t, a, t'⟩ ↔
      (t.world.pollSet[t.idx + 1]?).any (ready udpFd tcpListenFd) = false := by
  simp [Careful, here, removal]

theorem drop_eraseIdx {polls : List PollFd} {i : Nat} (here : polls[i]? = some pfd) :
    (polls.eraseIdx i).drop i = polls.drop (i + 1) := by
  obtain ⟨inside, -⟩ := List.getElem?_eq_some_iff.mp here
  rw [List.eraseIdx_eq_take_drop_succ, List.drop_left' (by rw [List.length_take]; omega)]

/-- Entries added in this sweep are passed by: `poll` has not seen them. -/
theorem Walked.round_added (walked : Walked udpFd tcpListenFd polls turns t front [] added)
    (here : t.world.pollSet[t.idx]? = some pfd) (outcome : RoundOutcome udpFd tcpListenFd a t pfd t') :
    Walked udpFd tcpListenFd polls (turns ++ [⟨t, a, t'⟩]) t' front [] added.tail := by
  have ahead := walked.ahead
  rw [drop_of_getElem? here, List.nil_append] at ahead
  have idle : ready udpFd tcpListenFd pfd = false := by
    apply ready_idle
    apply walked.idle
    rw [← ahead]
    exact List.mem_cons_self
  have stays : removes udpFd tcpListenFd a t.world pfd = false := stays_of_idle idle
  cases outcome with
  | passed skipped =>
    have behind : t.pass.world.pollSet.drop t.pass.idx = [] ++ added.tail := by
      rw [← ahead]
      rfl
    have step := walked.step [] [] added.tail behind
      (fun entry member => walked.idle entry (List.mem_of_mem_tail member)) (List.append_nil _).symm
      (List.nil_sublist _) (iff_of_true rfl (careful_of_stays here stays)) (by rw [← ahead]; simp)
    rwa [List.append_nil] at step
  | kept due _ _ _ _ _ => rw [due] at idle; cases idle
  | closed due _ _ _ => rw [due] at idle; cases idle
  | removed due _ _ _ => rw [due] at idle; cases idle
  | left due => rw [due] at idle; cases idle

/-- An entry that was there at the start is passed or dispatched; one removed by a request
takes the entry behind it along. -/
theorem Walked.round_ahead (walked : Walked udpFd tcpListenFd polls turns t front (pfd :: rest) added)
    (here : t.world.pollSet[t.idx]? = some pfd) (outcome : RoundOutcome udpFd tcpListenFd a t pfd t')
    (running : t'.exited = false) :
    ∃ front rest added, Walked udpFd tcpListenFd polls (turns ++ [⟨t, a, t'⟩]) t' front rest added := by
  have behind : t.world.pollSet.drop (t.idx + 1) = rest ++ added := by
    have ahead := walked.ahead
    rw [drop_of_getElem? here, List.cons_append, List.cons.injEq] at ahead
    exact ahead.2
  cases outcome with
  | passed skipped =>
    have stays : removes udpFd tcpListenFd a t.world pfd = false := stays_of_idle skipped
    exact ⟨_, _, _, walked.step [pfd] [] added behind walked.idle (List.append_nil _).symm
      (List.nil_sublist _) (iff_of_true (by simp [skipped]) (careful_of_stays here stays)) (by grind)⟩
  | @kept w more due stays _ pollSet short idle =>
    have inside := (List.getElem?_eq_some_iff.mp here).1
    have ahead : (t.advance pfd w).world.pollSet.drop (t.advance pfd w).idx = rest ++ (added ++ more) := by
      simp only [Turn.advance, pollSet]
      rw [List.drop_append_of_le_length (by omega), behind, List.append_assoc]
    exact ⟨_, _, _, walked.step [pfd] [pfd] (added ++ more) ahead
      (List.forall_mem_append.mpr ⟨walked.idle, idle⟩) rfl (by simp [due])
      (iff_of_true (by simp [due]) (careful_of_stays here stays)) (by grind)⟩
  | @closed w due stays _ erased =>
    have ahead : (t.stay pfd w).world.pollSet.drop (t.stay pfd w).idx = rest ++ added := by
      simp only [Turn.stay, erased]
      rw [drop_eraseIdx here, behind]
    exact ⟨_, _, _, walked.step [pfd] [pfd] added ahead walked.idle rfl (by simp [due])
      (iff_of_true (by simp [due]) (careful_of_stays here stays)) (by grind)⟩
  | @removed w due removal _ erased =>
    have ahead : (t.advance pfd w).world.pollSet.drop (t.advance pfd w).idx = (rest ++ added).tail := by
      simp only [Turn.advance, erased]
      rw [← List.drop_drop, drop_eraseIdx here, behind, List.drop_one]
    have careful : Careful udpFd tcpListenFd ⟨t, a, t.advance pfd w⟩ ↔
        ((rest ++ added).head?).any (ready udpFd tcpListenFd) = false := by
      rw [careful_of_removal here removal, ← behind, List.head?_drop]
    cases rest with
    | nil =>
      -- Behind the last old entry there is at most an idle one.
      have idle : ((([] : List PollFd) ++ added).head?).any (ready udpFd tcpListenFd) = false := by
        cases added with
        | nil => rfl
        | cons entry added => exact ready_idle (walked.idle entry List.mem_cons_self)
      exact ⟨_, _, _, walked.step [pfd] [pfd] added.tail ahead
        (fun entry member => walked.idle entry (List.mem_of_mem_tail member)) rfl (by simp [due])
        (iff_of_true (by simp [due]) (careful.mpr idle)) (by grind)⟩
    | cons next rest =>
      have skipped : [pfd].length = ([pfd, next].filter (ready udpFd tcpListenFd)).length ↔
          Careful udpFd tcpListenFd ⟨t, a, t.advance pfd w⟩ := by
        rw [careful]
        cases ready udpFd tcpListenFd next <;> simp [*]
      exact ⟨_, _, _, walked.step [pfd, next] [pfd] added ahead walked.idle rfl (by simp [due])
        skipped (by grind)⟩
  | left due => cases running

theorem RoundOutcome.healthy (outcome : RoundOutcome udpFd tcpListenFd a t pfd t')
    (healthy : Healthy t.world) (running : t'.exited = false) : Healthy t'.world := by
  cases outcome with
  | passed skipped => exact healthy
  | kept due stays kept pollSet short idle => exact kept
  | closed due stays kept erased => exact kept
  | removed due removal kept erased => exact kept
  | left due => cases running

end

/-! ## The whole sweep -/

/-- The loop in front of a round, as long as the server has not left it. -/
def Sweeping (udpFd tcpListenFd : Fd) (polls : List PollFd) (turns : List (Transition Turn Answers))
    (t : Turn) : Prop :=
  Healthy t.world ∧ ∃ front rest added, Walked udpFd tcpListenFd polls turns t front rest added

section

variable {polls : List PollFd} {turns : List (Transition Turn Answers)} {t t' : Turn} {a : Answers}

theorem Sweeping.more (sweeping : Sweeping udpFd tcpListenFd polls turns t)
    (inside : t.idx < t.world.pollSet.length) : turns.length + 1 ≤ 2 * polls.length := by
  obtain ⟨-, front, rest, added, walked⟩ := sweeping
  have left := congrArg List.length walked.ahead
  have bound := walked.bound
  rw [List.length_drop, List.length_append] at left
  omega

theorem Sweeping.round (sweeping : Sweeping udpFd tcpListenFd polls turns t) {pfd : PollFd}
    (here : t.world.pollSet[t.idx]? = some pfd) (outcome : RoundOutcome udpFd tcpListenFd a t pfd t')
    (running : t'.exited = false) : Sweeping udpFd tcpListenFd polls (turns ++ [⟨t, a, t'⟩]) t' := by
  obtain ⟨healthy, front, rest, added, walked⟩ := sweeping
  refine ⟨outcome.healthy healthy running, ?_⟩
  cases rest with
  | nil => exact ⟨_, _, _, walked.round_added here outcome⟩
  | cons entry rest =>
    have ahead := walked.ahead
    rw [drop_of_getElem? here, List.cons_append, List.cons.injEq] at ahead
    rw [← ahead.1] at walked
    exact walked.round_ahead here outcome running

/-- What holds in front of every round, and how many rounds there can be. -/
theorem sweeping_of_run {w : World} (healthy : Healthy w)
    (swept : (sweepSystem udpFd tcpListenFd w).Run turns t) :
    turns.length ≤ 2 * w.pollSet.length ∧
      (t.exited = false → Sweeping udpFd tcpListenFd w.pollSet turns t) := by
  apply swept.invariant (P := fun turns t => turns.length ≤ 2 * w.pollSet.length ∧
    (t.exited = false → Sweeping udpFd tcpListenFd w.pollSet turns t))
  · refine ⟨by simp, fun _ => ⟨healthy, [], w.pollSet, [], ?_⟩⟩
    exact ⟨rfl, by simp [sweepSystem], by simp, by simp [sweepSystem], by simp [sweepSystem, AlongFrom],
      by simp⟩
  · rintro turns t a t' - ⟨-, before⟩ ⟨running, inside, fit⟩ stepped
    have sweeping := before running
    have here : t.world.pollSet[t.idx]? = some t.world.pollSet[t.idx] := List.getElem?_eq_getElem inside
    obtain ⟨t'', served, outcome⟩ := serve_outcome sweeping.1 fit t.world.pollSet[t.idx] running
    have same : t'' = t' := by
      have step : t.iterate udpFd tcpListenFd a = some t' := stepped
      rw [Turn.iterate, here, Option.bind_some, served] at step
      exact Option.some.inj step
    rw [same] at outcome
    refine ⟨?_, fun stays => sweeping.round here outcome stays⟩
    rw [List.length_append]
    exact sweeping.more inside

/-- At the end of the loop everything has been passed. -/
theorem Sweeping.complete (sweeping : Sweeping udpFd tcpListenFd polls turns t)
    (done : t.world.pollSet.length ≤ t.idx) :
    t.dispatched.Perm (polls.filter (ready udpFd tcpListenFd)) ↔
      Along (fun _ x => Careful udpFd tcpListenFd x) turns := by
  obtain ⟨-, front, rest, added, walked⟩ := sweeping
  have ahead := walked.ahead
  rw [List.drop_eq_nil_of_le done] at ahead
  have empty : rest = [] := (List.append_eq_nil_iff.mp ahead.symm).1
  rw [walked.whole, empty, List.append_nil, ← walked.complete]
  constructor
  · exact List.Perm.length_eq
  · intro length
    rw [walked.served.eq_of_length length]

theorem Sweeping.sublist (sweeping : Sweeping udpFd tcpListenFd polls turns t) :
    t.dispatched.Sublist (polls.filter (ready udpFd tcpListenFd)) := by
  obtain ⟨-, front, rest, added, walked⟩ := sweeping
  rw [walked.whole, List.filter_append]
  exact walked.served.trans (List.sublist_append_left _ _)

end

/-- A sweep over any poll set comes to its end, dispatches no entry twice and none that was
added, and dispatches every ready entry exactly when no request removes an entry in front
of a ready one. -/
theorem sweep_serves_iff {past : History} {w : World} (run : (serverSystem udpFd tcpListenFd).Run past w)
    (polls : List PollFd) {turns : List (Transition Turn Answers)} {t : Turn}
    (swept : (sweepSystem udpFd tcpListenFd (w.afterPoll polls)).Run turns t) :
    turns.length ≤ 2 * polls.length ∧
      (∀ a, (sweepSystem udpFd tcpListenFd (w.afterPoll polls)).enabled t a →
        ∃ t', t.iterate udpFd tcpListenFd a = some t') ∧
      (t.exited = false → t.dispatched.Sublist (polls.filter (ready udpFd tcpListenFd))) ∧
      (t.exited = false → t.world.pollSet.length ≤ t.idx →
        (t.dispatched.Perm (polls.filter (ready udpFd tcpListenFd)) ↔
          Along (fun _ x => Careful udpFd tcpListenFd x) turns)) := by
  have healthy := healthy_of_run run
  have start : Healthy (w.afterPoll polls) :=
    ⟨healthy.tables.congr ⟨rfl, rfl, fun _ => rfl⟩, healthy.references.congr ⟨rfl, fun _ => rfl, rfl⟩⟩
  obtain ⟨bound, sweeping⟩ := sweeping_of_run start swept
  refine ⟨bound, ?_, fun running => (sweeping running).sublist,
    fun running => (sweeping running).complete⟩
  rintro a ⟨running, inside, fit⟩
  obtain ⟨t', served, -⟩ := serve_outcome (sweeping running).1 fit t.world.pollSet[t.idx] running
  exact ⟨t', by rw [Turn.iterate, List.getElem?_eq_getElem inside, Option.bind_some, served]⟩

/-! ## Two neighbours -/

def twoConnections : List Event := [.accept 5 default, .accept 6 default]

/-- Both connections are readable. -/
def bothReadable : List PollFd :=
  [⟨3, pollIn, 0⟩, ⟨4, pollIn, 0⟩, ⟨stdinFileno, pollIn, 0⟩, ⟨5, pollIn, pollIn⟩, ⟨6, pollIn, pollIn⟩]

/-- A round in which a connection reads this. -/
def reading (request : Option TcpRequest) : Answers :=
  ⟨exampleDatagram "", fun _ => 0, 100, 9, default, [], request, 1⟩

/-- A sweep of which a check of its rounds and its end is true. -/
private theorem exists_sweep (events : List Event) (polls : List PollFd) (answers : List Answers)
    (check : List (Transition Turn Answers) → Turn → Bool)
    (passes : ((serverSystem 3 4).replay [] (serverSystem 3 4).start events).any (fun r =>
      ((sweepSystem 3 4 (r.2.afterPoll polls)).replay [] (sweepSystem 3 4 (r.2.afterPoll polls)).start
        answers).any fun q => check q.1 q.2) = true) :
    ∃ past w, (serverSystem 3 4).Run past w ∧
      ∃ turns t, (sweepSystem 3 4 (w.afterPoll polls)).Run turns t ∧ check turns t = true := by
  obtain ⟨past, w, run, swept⟩ := System.exists_run (S := serverSystem 3 4) events
    (fun _ w => ((sweepSystem 3 4 (w.afterPoll polls)).replay []
      (sweepSystem 3 4 (w.afterPoll polls)).start answers).any fun q => check q.1 q.2) passes
  exact ⟨past, w, run, System.exists_run answers check swept⟩

/-- The first connection sends a request that leaves it open; both are served. -/
theorem neighbours_served : ∃ past w, (serverSystem 3 4).Run past w ∧
    ∃ turns t, (sweepSystem 3 4 (w.afterPoll bothReadable)).Run turns t ∧
      t.dispatched.Perm (bothReadable.filter (ready 3 4)) := by
  obtain ⟨past, w, run, turns, t, swept, ended⟩ := exists_sweep twoConnections bothReadable
    (List.replicate 5 (reading (some (exampleRequest .subscribe "A" "a" 0))))
    (fun turns t => decide (t.exited = false ∧ t.world.pollSet.length ≤ t.idx ∧
      Along (fun _ x => Careful 3 4 x) turns)) (by decide)
  obtain ⟨running, done, careful⟩ := of_decide_eq_true ended
  exact ⟨past, w, run, turns, t, swept,
    ((sweep_serves_iff run bothReadable swept).2.2.2 running done).mpr careful⟩

/-- The first connection sends EXIT; the second is not served in this sweep. -/
theorem neighbour_skipped : ∃ past w, (serverSystem 3 4).Run past w ∧
    ∃ turns t, (sweepSystem 3 4 (w.afterPoll bothReadable)).Run turns t ∧
      t.exited = false ∧ t.world.pollSet.length ≤ t.idx ∧
      ¬ t.dispatched.Perm (bothReadable.filter (ready 3 4)) := by
  obtain ⟨past, w, run, turns, t, swept, skipped⟩ := exists_sweep twoConnections bothReadable
    (List.replicate 4 (reading (some (exampleRequest .exit "A" "" 0))))
    (fun _ t => decide (t.exited = false ∧ t.world.pollSet.length ≤ t.idx ∧
      ¬ t.dispatched.Perm (bothReadable.filter (ready 3 4)))) (by decide)
  exact ⟨past, w, run, turns, t, swept, of_decide_eq_true skipped⟩

end PubSub.Properties
