import Mathlib.Logic.Function.Basic
import Mathlib.Data.List.Basic

/-!
# Publish and subscribe with store and forward

What a message broker is for, in its own terms: clients subscribe to patterns,
publishers name topics, and a relation says which topics a pattern covers. A message
goes to the clients that are online, each once; a client that is offline finds it
waiting if one of the subscriptions it matches asks for that.
-/
namespace PubSub.General

structure Account (Pattern Message : Type) where
  online : Bool
  /-- The subscriptions. The flag asks for messages to be kept while the account is offline. -/
  flags : Pattern → Option Bool
  waiting : List Message

/-- The account of a client, once there is one, and the messages it has been sent. -/
structure Mailbox (Pattern Message : Type) where
  account : Option (Account Pattern Message)
  sent : List Message

/-- What a client may ask for. -/
inductive Wish (Pattern : Type) where
  | connect
  | subscribe (pattern : Pattern) (flag : Bool)
  | unsubscribe (pattern : Pattern)
  | leave
  deriving DecidableEq

inductive Action (Id Pattern Topic Message : Type) where
  | wish (id : Id) (w : Wish Pattern)
  | publish (topic : Topic) (message : Message)
  deriving DecidableEq

variable {Id Pattern Topic Message : Type} (covers : Topic → Pattern → Prop)

/-- Whether a message on this topic is meant for the account, to be sent or to be kept. -/
def Account.Wants (a : Account Pattern Message) (topic : Topic) : Prop :=
  ∃ pattern flag, a.flags pattern = some flag ∧ covers topic pattern ∧ (a.online = true ∨ flag = true)

namespace Mailbox

def empty : Mailbox Pattern Message := ⟨none, []⟩

/-- Coming online delivers what is waiting; an account that is online already stays as it is. -/
def connect (m : Mailbox Pattern Message) : Mailbox Pattern Message :=
  match m.account with
  | none => ⟨some ⟨true, fun _ => none, []⟩, m.sent⟩
  | some a =>
    if a.online then m
    else ⟨some { a with online := true, waiting := [] }, m.sent ++ a.waiting⟩

variable [DecidableEq Pattern]

def grant (m : Mailbox Pattern Message) : Wish Pattern → Mailbox Pattern Message
  | .connect => m.connect
  | .subscribe pattern flag =>
    { m with account := m.account.map fun a =>
        { a with flags := Function.update a.flags pattern (some flag) } }
  | .unsubscribe pattern =>
    { m with account := m.account.map fun a =>
        { a with flags := Function.update a.flags pattern none } }
  | .leave => { m with account := m.account.map fun a => { a with online := false } }

open Classical in
/-- What a publication means for one client. -/
noncomputable def due (m : Mailbox Pattern Message) (topic : Topic) (message : Message) : List Message :=
  if ∃ a, m.account = some a ∧ a.Wants covers topic then [message] else []

noncomputable def offer (m : Mailbox Pattern Message) (topic : Topic) (message : Message) :
    Mailbox Pattern Message :=
  match m.account with
  | none => m
  | some a =>
    if a.online then { m with sent := m.sent ++ m.due covers topic message }
    else { m with account := some { a with waiting := a.waiting ++ m.due covers topic message } }

/-- One action, as the mailbox of `id` sees it. -/
noncomputable def see [DecidableEq Id] (id : Id) (m : Mailbox Pattern Message) :
    Action Id Pattern Topic Message → Mailbox Pattern Message
  | .wish other w => if other = id then m.grant w else m
  | .publish topic message => m.offer covers topic message

end Mailbox

abbrev Broker (Id Pattern Message : Type) := Id → Mailbox Pattern Message

namespace Broker

variable [DecidableEq Id] [DecidableEq Pattern]

def empty : Broker Id Pattern Message := fun _ => .empty

noncomputable def step (b : Broker Id Pattern Message) :
    Action Id Pattern Topic Message → Broker Id Pattern Message
  | .wish id w => Function.update b id ((b id).grant w)
  | .publish topic message => fun id => (b id).offer covers topic message

noncomputable def after (actions : List (Action Id Pattern Topic Message)) : Broker Id Pattern Message :=
  actions.foldl (step covers) empty

end Broker

/-! ## One mailbox at a time -/

section

variable [DecidableEq Id] [DecidableEq Pattern] {covers}

variable (covers) in
theorem Broker.after_append (actions more : List (Action Id Pattern Topic Message)) :
    (after covers (actions ++ more) : Broker Id Pattern Message) =
      more.foldl (step covers) (after covers actions) := List.foldl_append

theorem Broker.step_apply (b : Broker Id Pattern Message) (a : Action Id Pattern Topic Message) (id : Id) :
    b.step covers a id = (b id).see covers id a := by
  cases a with
  | wish other w =>
    rw [Broker.step, Function.update_apply, Mailbox.see]
    by_cases own : id = other
    · rw [if_pos own, if_pos own.symm, own]
    · rw [if_neg own, if_neg (Ne.symm own)]
  | publish topic message => rfl

theorem Broker.foldl_apply (b : Broker Id Pattern Message)
    (actions : List (Action Id Pattern Topic Message)) (id : Id) :
    actions.foldl (step covers) b id = actions.foldl (Mailbox.see covers id) (b id) := by
  induction actions generalizing b with
  | nil => rfl
  | cons a actions ih => rw [List.foldl_cons, ih, step_apply, List.foldl_cons]

/-- Whether an action can matter to the client `id`. -/
def Action.concerns (id : Id) : Action Id Pattern Topic Message → Bool
  | .wish other _ => other = id
  | .publish _ _ => true

theorem Mailbox.see_foreign (id : Id) (m : Mailbox Pattern Message) (a : Action Id Pattern Topic Message)
    (foreign : a.concerns id = false) : m.see covers id a = m := by
  cases a with
  | wish other w => exact if_neg (of_decide_eq_false foreign)
  | publish topic message => cases foreign

theorem Mailbox.foldl_filter (id : Id) (m : Mailbox Pattern Message)
    (actions : List (Action Id Pattern Topic Message)) :
    (actions.filter (Action.concerns id)).foldl (see covers id) m = actions.foldl (see covers id) m := by
  induction actions generalizing m with
  | nil => rfl
  | cons a actions ih =>
    by_cases own : a.concerns id = true
    · rw [List.filter_cons_of_pos own, List.foldl_cons, List.foldl_cons, ih]
    · rw [List.filter_cons_of_neg own, List.foldl_cons, see_foreign id m a (by simpa using own), ih]

/-- A mailbox depends on the wishes of its own client and on the publications only. -/
theorem Broker.after_congr (id : Id) (actions actions' : List (Action Id Pattern Topic Message))
    (same : actions.filter (Action.concerns id) = actions'.filter (Action.concerns id)) :
    after covers actions id = after covers actions' id := by
  rw [after, after, foldl_apply, foldl_apply, ← Mailbox.foldl_filter, same, Mailbox.foldl_filter]

end

/-! ## Everything once, in order -/

namespace Mailbox

/-- What a mailbox has got or will get. -/
def promised (m : Mailbox Pattern Message) : List Message :=
  m.sent ++ (m.account.map Account.waiting).getD []

/-- Nothing waits for a client that is online. -/
def Settled (m : Mailbox Pattern Message) : Prop :=
  ∀ a, m.account = some a → a.online = true → a.waiting = []

theorem Settled.empty : (Mailbox.empty : Mailbox Pattern Message).Settled := by
  intro a none
  cases none

variable {covers}

theorem Settled.offer {m : Mailbox Pattern Message} (settled : m.Settled) (topic : Topic)
    (message : Message) : (m.offer covers topic message).Settled := by
  rcases m with ⟨_ | a, sent⟩
  · exact settled
  · simp only [Mailbox.offer]
    split
    · exact settled
    next offline =>
      intro b known online
      cases known
      exact absurd online offline

theorem promised_offer {m : Mailbox Pattern Message} (settled : m.Settled) (topic : Topic)
    (message : Message) :
    (m.offer covers topic message).promised = m.promised ++ m.due covers topic message := by
  rcases m with ⟨_ | a, sent⟩
  · simp [offer, due]
  · simp only [Mailbox.offer]
    split
    next online => simp [promised, settled a rfl online]
    next offline => simp [promised]

/-- What one action adds to a mailbox. -/
noncomputable def dueAt (covers : Topic → Pattern → Prop) (m : Mailbox Pattern Message) :
    Action Id Pattern Topic Message → List Message
  | .wish _ _ => []
  | .publish topic message => m.due covers topic message

variable [DecidableEq Pattern]

theorem Settled.grant {m : Mailbox Pattern Message} (settled : m.Settled) (w : Wish Pattern) :
    (m.grant w).Settled := by
  rcases m with ⟨_ | a, sent⟩
  · cases w with
    | connect =>
      intro b known online
      cases known
      rfl
    | subscribe | unsubscribe | leave => exact settled
  · have idle : a.online = true → a.waiting = [] := settled a rfl
    cases w with
    | connect =>
      simp only [Mailbox.grant, Mailbox.connect]
      split
      · exact settled
      · intro b known online
        cases known
        rfl
    | subscribe pattern flag | unsubscribe pattern =>
      intro b known online
      cases known
      exact idle online
    | leave =>
      intro b known online
      cases known
      cases online

/-- A wish moves messages at most from those that wait to those that have been sent. -/
theorem promised_grant (m : Mailbox Pattern Message) (w : Wish Pattern) :
    (m.grant w).promised = m.promised := by
  rcases m with ⟨_ | a, sent⟩
  · cases w <;> rfl
  · cases w with
    | connect =>
      simp only [Mailbox.grant, Mailbox.connect]
      split
      · rfl
      · simp [promised]
    | subscribe | unsubscribe | leave => rfl

variable [DecidableEq Id]

variable (covers) in
theorem see_spec {m : Mailbox Pattern Message} (settled : m.Settled) (id : Id)
    (a : Action Id Pattern Topic Message) :
    (m.see covers id a).Settled ∧ (m.see covers id a).promised = m.promised ++ m.dueAt covers a := by
  cases a with
  | wish other w =>
    rw [see, dueAt, List.append_nil]
    split
    · exact ⟨settled.grant w, m.promised_grant w⟩
    · exact ⟨settled, rfl⟩
  | publish topic message => exact ⟨settled.offer topic message, promised_offer settled topic message⟩

end Mailbox

section

variable [DecidableEq Id] [DecidableEq Pattern]

/-- What a list of actions adds to a mailbox. -/
noncomputable def owedFrom (id : Id) :
    Mailbox Pattern Message → List (Action Id Pattern Topic Message) → List Message
  | _, [] => []
  | m, a :: actions => m.dueAt covers a ++ owedFrom id (m.see covers id a) actions

/-- The messages that a client is owed, in the order of their publication. -/
noncomputable def owed (actions : List (Action Id Pattern Topic Message)) (id : Id) : List Message :=
  owedFrom covers id .empty actions

theorem promised_foldl {m : Mailbox Pattern Message} (settled : m.Settled) (id : Id)
    (actions : List (Action Id Pattern Topic Message)) :
    (actions.foldl (Mailbox.see covers id) m).Settled ∧
      (actions.foldl (Mailbox.see covers id) m).promised = m.promised ++ owedFrom covers id m actions := by
  induction actions generalizing m with
  | nil => exact ⟨settled, (List.append_nil _).symm⟩
  | cons a actions ih =>
    obtain ⟨settled', promised⟩ := Mailbox.see_spec covers settled id a
    obtain ⟨last, total⟩ := ih settled'
    refine ⟨last, ?_⟩
    rw [List.foldl_cons, total, promised, owedFrom, List.append_assoc]

variable {covers}

/-- What has been sent and what is waiting is what is owed. -/
theorem Broker.after_spec (actions : List (Action Id Pattern Topic Message)) (id : Id) :
    (after covers actions id).Settled ∧ (after covers actions id).promised = owed covers actions id := by
  rw [after, foldl_apply]
  obtain ⟨settled, promised⟩ := promised_foldl covers Mailbox.Settled.empty id actions
  exact ⟨settled, promised⟩

/-! ## Wishes of different clients -/

variable (covers) in
theorem Broker.step_comm (b : Broker Id Pattern Message) (id id' : Id) (other : id ≠ id')
    (w w' : Wish Pattern) :
    step covers (step covers b (.wish id w)) (.wish id' w' : Action Id Pattern Topic Message) =
      step covers (step covers b (.wish id' w')) (.wish id w : Action Id Pattern Topic Message) := by
  simp only [Broker.step]
  rw [Function.update_of_ne (Ne.symm other), Function.update_of_ne other, Function.update_comm other]

end

/-! ## Other relations between topics and patterns -/

variable {covers} {covers' : Topic → Pattern → Prop}

namespace Mailbox

/-- The same subscriptions, with perhaps fewer messages. -/
inductive Leaner : Mailbox Pattern Message → Mailbox Pattern Message → Prop
  | closed {sent sent'} : sent.Sublist sent' → Leaner ⟨none, sent⟩ ⟨none, sent'⟩
  | opened {online flags waiting waiting' sent sent'} : waiting.Sublist waiting' → sent.Sublist sent' →
      Leaner ⟨some ⟨online, flags, waiting⟩, sent⟩ ⟨some ⟨online, flags, waiting'⟩, sent'⟩

theorem Leaner.promised {m m' : Mailbox Pattern Message} (leaner : m.Leaner m') :
    m.promised.Sublist m'.promised := by
  cases leaner with
  | closed sent => exact sent.append (.refl _)
  | opened waiting sent => exact sent.append waiting

theorem due_sublist (narrower : ∀ topic pattern, covers topic pattern → covers' topic pattern)
    (online : Bool) (flags : Pattern → Option Bool) (waiting waiting' sent sent' : List Message)
    (topic : Topic) (message : Message) :
    (due covers ⟨some ⟨online, flags, waiting⟩, sent⟩ topic message).Sublist
      (due covers' ⟨some ⟨online, flags, waiting'⟩, sent'⟩ topic message) := by
  unfold due
  split
  next wanted =>
    obtain ⟨a, known, pattern, flag, set, hit, reason⟩ := wanted
    cases known
    rw [if_pos ⟨_, rfl, pattern, flag, set, narrower topic pattern hit, reason⟩]
  next unwanted => exact List.nil_sublist _

theorem Leaner.offer (narrower : ∀ topic pattern, covers topic pattern → covers' topic pattern)
    {m m' : Mailbox Pattern Message} (leaner : m.Leaner m') (topic : Topic) (message : Message) :
    (m.offer covers topic message).Leaner (m'.offer covers' topic message) := by
  cases leaner with
  | closed sent => exact .closed sent
  | @opened online flags waiting waiting' sent sent' kept given =>
    have due := due_sublist narrower online flags waiting waiting' sent sent' topic message
    cases online with
    | true => exact .opened kept (given.append due)
    | false => exact .opened (kept.append due) given

/-- The patterns of a mailbox are among these. -/
def Within (patterns : Pattern → Prop) (m : Mailbox Pattern Message) : Prop :=
  ∀ a, m.account = some a → ∀ pattern, a.flags pattern ≠ none → patterns pattern

theorem Within.offer {patterns : Pattern → Prop} {m : Mailbox Pattern Message} (within : m.Within patterns)
    (topic : Topic) (message : Message) : (m.offer covers topic message).Within patterns := by
  rcases m with ⟨_ | a, sent⟩
  · exact within
  · simp only [Mailbox.offer]
    split
    · exact within
    · intro b known
      cases known
      exact within a rfl

theorem Within.offer_eq {patterns : Pattern → Prop} {m : Mailbox Pattern Message} (within : m.Within patterns)
    (topic : Topic) (message : Message)
    (agree : ∀ pattern, patterns pattern → (covers topic pattern ↔ covers' topic pattern)) :
    m.offer covers topic message = m.offer covers' topic message := by
  have due : m.due covers topic message = m.due covers' topic message := by
    have wants : (∃ a, m.account = some a ∧ a.Wants covers topic) ↔
        ∃ a, m.account = some a ∧ a.Wants covers' topic := by
      constructor <;> rintro ⟨a, known, pattern, flag, set, hit, reason⟩
      · exact ⟨a, known, pattern, flag, set,
          (agree pattern (within a known pattern (by simp [set]))).mp hit, reason⟩
      · exact ⟨a, known, pattern, flag, set,
          (agree pattern (within a known pattern (by simp [set]))).mpr hit, reason⟩
    unfold Mailbox.due
    split
    next wanted => rw [if_pos (wants.mp wanted)]
    next unwanted => rw [if_neg fun wanted => unwanted (wants.mpr wanted)]
  rw [Mailbox.offer, Mailbox.offer, due]

variable [DecidableEq Pattern]

theorem Leaner.grant {m m' : Mailbox Pattern Message} (leaner : m.Leaner m') (w : Wish Pattern) :
    (m.grant w).Leaner (m'.grant w) := by
  cases leaner with
  | closed sent =>
    cases w with
    | connect => exact .opened (.refl _) sent
    | subscribe | unsubscribe | leave => exact .closed sent
  | @opened online flags waiting waiting' sent sent' kept given =>
    cases w with
    | connect =>
      cases online with
      | true => exact .opened kept given
      | false => exact .opened (.refl _) (given.append kept)
    | subscribe | unsubscribe | leave => exact .opened kept given

theorem Within.grant {patterns : Pattern → Prop} {m : Mailbox Pattern Message} (within : m.Within patterns)
    {w : Wish Pattern} (named : ∀ pattern flag, w = .subscribe pattern flag → patterns pattern) :
    (m.grant w).Within patterns := by
  rcases m with ⟨_ | a, sent⟩
  · cases w with
    | connect =>
      intro b known pattern set
      cases known
      exact absurd rfl set
    | subscribe | unsubscribe | leave => exact within
  · cases w with
    | connect =>
      simp only [Mailbox.grant, Mailbox.connect]
      split
      · exact within
      · intro b known
        cases known
        exact within a rfl
    | subscribe new flag =>
      intro b known pattern set
      cases known
      have set : Function.update a.flags new (some flag) pattern ≠ none := set
      by_cases own : pattern = new
      · exact own ▸ named new flag rfl
      · rw [Function.update_of_ne own] at set
        exact within a rfl pattern set
    | unsubscribe old =>
      intro b known pattern set
      cases known
      have set : Function.update a.flags old none pattern ≠ none := set
      by_cases own : pattern = old
      · rw [own, Function.update_self] at set
        exact absurd rfl set
      · rw [Function.update_of_ne own] at set
        exact within a rfl pattern set
    | leave =>
      intro b known
      cases known
      exact within a rfl

end Mailbox

section

variable [DecidableEq Id] [DecidableEq Pattern]

theorem Mailbox.Leaner.see (narrower : ∀ topic pattern, covers topic pattern → covers' topic pattern)
    {m m' : Mailbox Pattern Message} (leaner : m.Leaner m') (id : Id)
    (a : Action Id Pattern Topic Message) : (m.see covers id a).Leaner (m'.see covers' id a) := by
  cases a with
  | wish other w =>
    simp only [Mailbox.see]
    split
    · exact leaner.grant w
    · exact leaner
  | publish topic message => exact leaner.offer narrower topic message

/-- A narrower relation owes less, in the same order. -/
theorem owed_sublist (narrower : ∀ topic pattern, covers topic pattern → covers' topic pattern)
    (actions : List (Action Id Pattern Topic Message)) (id : Id) :
    (owed covers actions id).Sublist (owed covers' actions id) := by
  have leaner : ∀ m m' : Mailbox Pattern Message, m.Leaner m' →
      (actions.foldl (Mailbox.see covers id) m).Leaner (actions.foldl (Mailbox.see covers' id) m') := by
    induction actions with
    | nil => exact fun m m' leaner => leaner
    | cons a actions ih => exact fun m m' leaner => ih _ _ (leaner.see narrower id a)
  have both := (leaner _ _ (.closed (.refl []))).promised
  rw [← (Broker.after_spec actions id).2, ← (Broker.after_spec actions id).2, Broker.after,
    Broker.after, Broker.foldl_apply, Broker.foldl_apply]
  exact both

/-- Relations that agree on the topics published and the patterns subscribed to make no difference. -/
theorem Broker.after_agree (topics : Topic → Prop) (patterns : Pattern → Prop)
    (agree : ∀ topic pattern, topics topic → patterns pattern →
      (covers topic pattern ↔ covers' topic pattern))
    (actions : List (Action Id Pattern Topic Message))
    (published : ∀ topic message, .publish topic message ∈ actions → topics topic)
    (subscribed : ∀ id pattern flag, .wish id (.subscribe pattern flag) ∈ actions → patterns pattern) :
    after covers actions = after covers' actions := by
  funext id
  have same : ∀ m : Mailbox Pattern Message, m.Within patterns →
      actions.foldl (Mailbox.see covers id) m = actions.foldl (Mailbox.see covers' id) m := by
    induction actions with
    | nil => exact fun m _ => rfl
    | cons a actions ih =>
      intro m within
      have rest := ih (fun topic message member => published topic message (List.mem_cons_of_mem a member))
        (fun other pattern flag member => subscribed other pattern flag (List.mem_cons_of_mem a member))
      rw [List.foldl_cons, List.foldl_cons]
      cases a with
      | wish other w =>
        simp only [Mailbox.see]
        split
        · exact rest _ (within.grant fun pattern flag own =>
            subscribed other pattern flag (own ▸ List.mem_cons_self))
        · exact rest m within
      | publish topic message =>
        have equal := within.offer_eq topic message
          fun pattern known => agree topic pattern (published topic message List.mem_cons_self) known
        simp only [Mailbox.see, equal]
        exact rest _ (within.offer topic message)
  rw [after, after, foldl_apply, foldl_apply]
  apply same
  intro a none
  cases none

end

end PubSub.General
