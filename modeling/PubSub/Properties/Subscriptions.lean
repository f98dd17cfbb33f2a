import PubSub.Properties.Lifetimes

/-!
# Subscriptions and the requests behind them

`roster` reads the subscriptions of every id off the requests received so far.
The maps of the server hold the same at any time.
-/
namespace PubSub.Properties

open General Std

/-- The subscriptions of one id with their flags; none when it is not registered. -/
abbrev Profile := Option (Bytes → Option Bool)

/-- What a request of an id means for its subscriptions. -/
def noteRequest (r : TcpRequest) (profile : Profile) : Profile :=
  match r.type with
  | .message => some (profile.getD fun _ => none)
  | .subscribe => profile.map fun topics => Function.update topics r.topic (some r.sf)
  | .unsubscribe => profile.map fun topics => Function.update topics r.topic none
  | _ => profile

def note (roster : Bytes → Profile) : Event → Bytes → Profile
  | .request _ r _ => Function.update roster r.clientId (noteRequest r (roster r.clientId))
  | _ => roster

/-- The subscriptions that the request history gives. -/
def roster (past : History) : Bytes → Profile :=
  past.foldl (fun roster x => note roster x.event) fun _ => none

@[simp] theorem roster_snoc (past : History) (x : Transition World Event) :
    roster (past ++ [x]) = note (roster past) x.event := by
  simp [roster]

/-- The flag of the last SUBSCRIBE with this id and pattern. -/
def lastSubscribe (past : History) (id pattern : Bytes) : Option Bool :=
  past.reverse.findSome? fun x => match x.event with
    | .request _ r _ =>
      if r.type = .subscribe ∧ r.clientId = id ∧ r.topic = pattern then some r.sf else none
    | _ => none

/-- A flag in the roster is that of the last SUBSCRIBE. -/
theorem lastSubscribe_of_roster (past : History) (id pattern : Bytes) (topics : Bytes → Option Bool)
    (flag : Bool) (registered : roster past id = some topics) (set : topics pattern = some flag) :
    lastSubscribe past id pattern = some flag := by
  -- From the latest request backwards: the first one for this pair has decided.
  induction past using List.reverseRecOn generalizing topics with
  | nil => simp [roster] at registered
  | append_singleton past x ih =>
    rw [roster_snoc] at registered
    simp only [lastSubscribe] at ih ⊢
    rw [List.reverse_append, List.reverse_singleton, List.singleton_append, List.findSome?_cons]
    cases event : x.event with
    | request fd r fresh =>
      rw [event, note, Function.update_apply] at registered
      dsimp only
      split at registered
      next own =>
        subst own
        cases type : r.type with
        | subscribe =>
          simp only [noteRequest, type, Option.map_eq_some_iff] at registered
          obtain ⟨before, old, rfl⟩ := registered
          rw [Function.update_apply] at set
          split at set
          next same => simpa [same] using set
          next other => simpa [Ne.symm other] using ih before old set
        | unsubscribe =>
          -- An UNSUBSCRIBE of this pattern would have cleared the flag.
          simp only [noteRequest, type, Option.map_eq_some_iff] at registered
          obtain ⟨before, old, rfl⟩ := registered
          rw [Function.update_apply] at set
          split at set
          · cases set
          next other => simpa using ih before old set
        | message =>
          -- A CONNECT starts an empty profile or keeps the one there is.
          simp only [noteRequest, type, Option.some.injEq] at registered
          subst registered
          cases old : roster past r.clientId with
          | none => simp [old] at set
          | some before =>
            rw [old, Option.getD_some] at set
            simpa using ih before old set
        | exit =>
          simp only [noteRequest, type] at registered
          simpa using ih topics registered set
        | other word =>
          simp only [noteRequest, type] at registered
          simpa using ih topics registered set
      -- A request that names another id decides nothing.
      next foreign => simpa [Ne.symm foreign] using ih topics registered set
    | accept fd peer => rw [event] at registered; exact ih topics registered set
    | disconnect fd => rw [event] at registered; exact ih topics registered set
    | datagram d stale message => rw [event] at registered; exact ih topics registered set

/-! ## The server's maps -/

/-- The subscriptions the server has for an id. -/
def profile (w : World) (id : Bytes) : Profile :=
  (w.recordOf id).map fun c pattern => c.topics[pattern]?

theorem profile_of_record {w : World} {id : Bytes} {p : ClientPtr} {c : TcpClient}
    (record : w.Record id p c) : profile w id = some fun pattern => c.topics[pattern]? := by
  rw [profile, record.recordOf]
  rfl

theorem profile_of_absent {w : World} {id : Bytes} (absent : w.state.clients[id]? = none) :
    profile w id = none := by
  rw [profile, World.recordOf, absent]
  rfl

theorem profile_congr {w w' : World} (same : SameTables w w') : profile w' = profile w := by
  funext id
  rw [profile, profile, World.recordOf, World.recordOf, same.clients]
  cases w.state.clients[id]? with
  | none => rfl
  | some p =>
    have record := congrArg
      (Option.map fun (named : Bytes × TreeMap Bytes Bool) (pattern : Bytes) => named.2[pattern]?)
      (same.records p)
    simpa [named, Option.map_map, Function.comp_def] using record

/-- A look at one part of every record, after one record has changed. -/
theorem map_update {β : Type} (view : TcpClient → β) (records : Bytes → Option TcpClient) (id : Bytes)
    (c : TcpClient) :
    (fun other => (Function.update records id (some c) other).map view) =
      Function.update (fun other => (records other).map view) id (some (view c)) := by
  funext other
  rw [Function.update_apply, Function.update_apply]
  split <;> rfl

/-- One record with other topics, everyone else's as they were. -/
theorem profile_tablesWith {w : World} (tables : Tables w) {id : Bytes} {p : ClientPtr} {c : TcpClient}
    (record : w.Record id p c) (table : TreeMap Bytes (List ClientPtr)) (topics : TreeMap Bytes Bool) :
    profile (tablesWith w table p { c with topics := topics }) =
      Function.update (profile w) id (some fun pattern => topics[pattern]?) := by
  unfold profile
  rw [recordOf_tablesWith tables record]
  exact map_update _ _ _ _

theorem profile_registered {w : World} (tables : Tables w) (id : Bytes) (fd : Fd) (fresh : ClientPtr)
    (unused : w.clientHeap.read fresh = none) :
    profile (registered w id fd fresh) = Function.update (profile w) id (some fun _ => none) := by
  have topics : (fun pattern : Bytes => (∅ : TreeMap Bytes Bool)[pattern]?) = fun _ => none := by
    funext pattern
    simp
  unfold profile
  rw [recordOf_registered tables id fd fresh unused, map_update, topics]

theorem profile_request {w w' : World} {fd : Fd} {r : TcpRequest} {index : Nat} {fresh : ClientPtr}
    (tables : Tables w) (unused : w.clientHeap.read fresh = none)
    (outcome : RequestOutcome fd r index fresh w w') :
    profile w' = Function.update (profile w) r.clientId (noteRequest r (profile w r.clientId)) := by
  cases outcome with
  | rejected type record connected =>
    calc
      profile _ = profile w := profile_congr ⟨rfl, rfl, fun _ => rfl⟩
      _ = _ := by
        -- A CONNECT of a known id keeps the subscriptions there are.
        rw [noteRequest, type, profile_of_record record, Option.getD_some, ← profile_of_record record,
          Function.update_eq_self]
  | reconnected type record lost released =>
    rw [profile_congr (SameTables.reconnected record.cell), noteRequest, type, profile_of_record record,
      Option.getD_some, ← profile_of_record record, Function.update_eq_self]
  | registered type new =>
    rw [profile_registered tables _ _ _ unused, noteRequest, type, profile_of_absent new]
    rfl
  | subscribed type record vector =>
    rw [profile_tablesWith tables record, noteRequest, type, profile_of_record record, Option.map_some]
    congr 2
    funext pattern
    rw [lookup_insert, Function.update_apply]
  | unsubscribed type record vector =>
    rw [profile_tablesWith tables record, noteRequest, type, profile_of_record record, Option.map_some]
    congr 2
    funext pattern
    simp only [lookup_erase, Function.update_apply]
  | exited type record =>
    rw [noteRequest, type, Function.update_eq_self]
    exact profile_congr (.ofWrite record.cell rfl rfl rfl rfl)
  | exitedUnknown type new =>
    calc
      profile _ = profile w := profile_congr ⟨rfl, rfl, fun _ => rfl⟩
      _ = _ := by rw [noteRequest, type, Function.update_eq_self]
  | ignored reason =>
    rcases reason with ⟨type | type, new⟩ | ⟨word, type⟩ <;>
      simp [noteRequest, profile_of_absent, *]

/-- Only requests change what an id is subscribed to. -/
theorem profile_step {w w' : World} {e : Event} (tables : Tables w) (enabled : e.Enabled w)
    (outcome : Outcome w e w') : profile w' = note (profile w) e := by
  cases outcome with
  | accepted => exact profile_congr ⟨rfl, rfl, fun _ => rfl⟩
  | requested outcome => exact profile_request tables enabled.2 outcome
  | lost outcome =>
    cases outcome with
    | marked named record same first => exact profile_congr (.ofWrite record.cell rfl rfl rfl rfl)
    | unmarked reason => exact profile_congr ⟨rfl, rfl, fun _ => rfl⟩
  | routed routed => exact profile_congr routed.sameTables

section

variable {udpFd tcpListenFd : Fd} {past : History} {w : World}

/-- The server's maps are the roster of the requests it has received. -/
theorem profile_of_run (run : (serverSystem udpFd tcpListenFd).Run past w) : profile w = roster past := by
  apply run_induction (P := fun past w => profile w = roster past) _ _ run
  · funext id
    simp [profile, roster, World.recordOf, World.start]
  · intro past w e w' run healthy same enabled outcome
    rw [roster_snoc, ← same]
    exact profile_step healthy.tables enabled outcome

/-- The two tables and the request history agree. -/
structure Mirrored (past : History) (w : World) : Prop where
  mirror : ∀ id p c pattern, w.Record id p c →
    (p ∈ w.subscribers pattern ↔ c.topics.contains pattern = true)
  once : ∀ pattern, (w.subscribers pattern).Nodup
  known : ∀ pattern, ∀ p ∈ w.subscribers pattern, ∃ id c, w.Record id p c
  own : ∀ id p, w.state.clients[id]? = some p → ∃ c, w.Record id p c ∧ c.id = id
  alone : ∀ (id id' : Bytes) (p : ClientPtr), w.state.clients[id]? = some p →
    w.state.clients[id']? = some p → id' = id
  flag : ∀ id p c pattern flag, w.Record id p c → c.topics[pattern]? = some flag →
    lastSubscribe past id pattern = some flag
  subscriptions : ∀ id p c, w.Record id p c →
    roster past id = some fun pattern => c.topics[pattern]?

/-- In every reachable state the two tables mirror each other and the requests. -/
theorem tables_mirrored (run : (serverSystem udpFd tcpListenFd).Run past w) : Mirrored past w := by
  have tables := (healthy_of_run run).tables
  have same := profile_of_run run
  have subscriptions : ∀ id p c, w.Record id p c →
      roster past id = some fun pattern => c.topics[pattern]? := by
    intro id p c record
    rw [← same, profile_of_record record]
  refine ⟨?_, tables.once, ?_, ?_, ?_, ?_, subscriptions⟩
  · intro id p c pattern record
    exact tables.mirror p c pattern record.cell
  · intro pattern p member
    obtain ⟨c, cell⟩ := Option.isSome_iff_exists.mp (tables.known pattern p member)
    exact ⟨c.id, c, tables.only p c cell, cell⟩
  · intro id p entry
    obtain ⟨c, record⟩ := record_of_entry tables entry
    exact ⟨c, record, record_name tables record⟩
  · intro id id' p first second
    by_contra other
    exact ptr_ne tables first second other rfl
  · intro id p c pattern flag record set
    exact lastSubscribe_of_roster past id pattern _ flag (subscriptions id p c record) set

end

/-- Subscribing twice, unsubscribing from nothing and coming back. -/
def resubscribed : List Event :=
  [.accept 5 default, .request 5 (exampleRequest .subscribe "A" "a" 1) 1,
    .request 5 (exampleRequest .message "A" "" 0) 1,
    .request 5 (exampleRequest .subscribe "A" "a" 1) 9,
    .request 5 (exampleRequest .unsubscribe "A" "b" 0) 9, .disconnect 5, .accept 5 default,
    .request 5 (exampleRequest .message "A" "" 0) 9,
    .request 5 (exampleRequest .subscribe "A" "a" 0) 9]

theorem tables_mirrored_resubscribed : ∃ past w, (serverSystem 3 4).Run past w ∧ Mirrored past w ∧
    w.subscribers (ascii "a") = [1] ∧ lastSubscribe past (ascii "A") (ascii "a") = some false := by
  obtain ⟨past, w, run, seen⟩ := System.exists_run (S := serverSystem 3 4) resubscribed
    (fun past (w : World) => w.subscribers (ascii "a") = [1] ∧
      lastSubscribe past (ascii "A") (ascii "a") = some false) (by decide)
  exact ⟨past, w, run, tables_mirrored run, of_decide_eq_true seen⟩

end PubSub.Properties
