import PubSub.Subscriber.Client

/-!
# The subscriber's main loop

Follows `subscriber()`: a CONNECT first, then sweeps over the two entries of the poll
set, standard input in front of the socket. A sweep is walked entry by entry, since a
handler may have to wait for bytes that are still to come.
-/
namespace PubSub

open General

/-- Where the loop stands. A sweep is not cut short when `running` becomes false. -/
inductive Phase where
  | atPoll
  | atInput (socketReady : Bool)
  | atSocket
  | left
  deriving DecidableEq, Repr

structure Process where
  id : Bytes
  status : Status
  phase : Phase
  /-- The strings passed to `parse_input`, oldest first. -/
  parsed : List Bytes
  /-- What has been written to standard output, oldest first. -/
  printed : List Bytes
  /-- The packets passed to `send_all`, oldest first. -/
  sent : List Bytes
  deriving DecidableEq

namespace Process

variable (p : Process)

/-- In front of the loop. None is a CONNECT whose id does not fit into the record. -/
def launch (id : Bytes) : Option Process := do
  let packet ← sendConnectMessage id
  some ⟨id, .running, .atPoll, [], [], [packet]⟩

/-- Behind `poll`, which has reported these two entries as readable. -/
def poll (input socket : Bool) : Process :=
  { p with phase := if input then .atInput socket else if socket then .atSocket else .atPoll }

/-- The test `while (running)` behind a sweep. -/
def settle : Process := { p with phase := if p.status = .running then .atPoll else .left }

/-- Behind the first entry of the poll set. -/
def next (socketReady : Bool) : Process :=
  if socketReady then { p with phase := .atSocket } else p.settle

/-- What `process_user_command` did. -/
def obey (result : CommandResult) : Process :=
  { p with
    sent := p.sent ++ result.sent
    printed := p.printed ++ [result.printed]
    status := if result.leave then .stopped else p.status }

/-- The subscriber inside `handle_server_message`. -/
def reader (sock : Incoming) : Subscriber := ⟨sock, p.parsed, p.status⟩

/-- What `handle_server_message` did. -/
def heed (rt : RealText) (c : Subscriber) : Process :=
  { p with
    parsed := c.parsed
    status := c.status
    printed := p.printed ++
      (c.parsed.drop p.parsed.length).map fun data => (parseInput rt data).getD [] }

/-! ## What each update leaves alone -/

section

variable (input socket : Bool) (result : CommandResult) (rt : RealText) (c : Subscriber)

@[simp] theorem poll_id : (p.poll input socket).id = p.id := rfl
@[simp] theorem poll_parsed : (p.poll input socket).parsed = p.parsed := rfl
@[simp] theorem poll_sent : (p.poll input socket).sent = p.sent := rfl
@[simp] theorem poll_status : (p.poll input socket).status = p.status := rfl
@[simp] theorem settle_id : p.settle.id = p.id := rfl
@[simp] theorem settle_parsed : p.settle.parsed = p.parsed := rfl
@[simp] theorem settle_sent : p.settle.sent = p.sent := rfl
@[simp] theorem settle_status : p.settle.status = p.status := rfl
@[simp] theorem next_id : (p.next socket).id = p.id := by cases socket <;> rfl
@[simp] theorem next_parsed : (p.next socket).parsed = p.parsed := by cases socket <;> rfl
@[simp] theorem next_sent : (p.next socket).sent = p.sent := by cases socket <;> rfl
@[simp] theorem next_status : (p.next socket).status = p.status := by cases socket <;> rfl
@[simp] theorem obey_id : (p.obey result).id = p.id := rfl
@[simp] theorem obey_parsed : (p.obey result).parsed = p.parsed := rfl
@[simp] theorem obey_sent : (p.obey result).sent = p.sent ++ result.sent := rfl
@[simp] theorem heed_id : (p.heed rt c).id = p.id := rfl
@[simp] theorem heed_parsed : (p.heed rt c).parsed = c.parsed := rfl
@[simp] theorem heed_sent : (p.heed rt c).sent = p.sent := rfl
@[simp] theorem heed_status : (p.heed rt c).status = c.status := rfl

end

end Process

end PubSub
