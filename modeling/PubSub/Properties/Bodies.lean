import PubSub.Common.Parse

/-!
# What `parse_input` writes for a body

The offsets of the reader, taken apart: a body is a sender and a payload, and the text
written for it depends on the topic field, the type byte and the bytes behind it.
-/
namespace PubSub.Properties

open General

/-! ## The text behind the topic -/

/-- What `parse_input` prints behind the topic, for the type byte and the bytes behind it. -/
def valueText (rt : RealText) (type : UInt8) (data : Bytes) : Bytes :=
  if type = dataInt then
    if data.length < 5 then []
    else ascii " - INT - " ++ intText (signedValue (data.headD 0) ((data.drop 1).take 4)).1 ++
      ascii "\n"
  else if type = dataShortReal then
    if data.length < 2 then []
    else ascii " - SHORT_REAL - " ++ rt.shortReal (ntohl (data.take 2)) ++ ascii "\n"
  else if type = dataFloat then
    if data.length < 6 then []
    else ascii " - FLOAT - " ++
      rt.float (data.headD 0) (ntohl ((data.drop 1).take 4)) ((data.drop 5).headD 0) ++ ascii "\n"
  else if type = dataString then ascii " - STRING - " ++ cString data ++ ascii "\n"
  else []

private theorem headD_take_one (data : Bytes) : (data.take 1).headD 0 = data.headD 0 := by
  cases data <;> rfl

/-- The `switch` reads the bytes from its position on, and none in front of it. -/
theorem parsePayload_eq (rt : RealText) (buff : Bytes) (type : UInt8) (pos : Nat)
    (inside : pos ≤ buff.length) :
    parsePayload rt buff type pos = some (valueText rt type (buff.drop pos)) := by
  have size : (buff.drop pos).length = buff.length - pos := List.length_drop
  simp only [parsePayload, valueText, size]
  split_ifs with int shortInt less₁ less₁ real shortReal less₂ less₂ float shortFloat less₃ less₃ string
  all_goals first | omega | skip
  · rfl
  · simp only [readAt_some buff pos 1 (by omega), readAt_some buff (pos + 1) 4 (by omega),
      Option.bind_eq_bind, Option.bind_some, headD_take_one, List.drop_drop]
  · rfl
  · simp [readAt_some buff pos 2 (by omega), ntohl]
  · rfl
  · simp only [readAt_some buff pos 1 (by omega), readAt_some buff (pos + 1) 4 (by omega),
      readAt_some buff (pos + 5) 1 (by omega), Option.bind_eq_bind, Option.bind_some, headD_take_one,
      List.drop_drop]
  · rw [substr_some buff pos _ inside, List.take_of_length_le (by rw [size])]
    rfl
  · rfl

/-! ## The line for a body -/

/-- A body: sender address, sender port, payload. -/
def bodyOf (sender : SockAddr) (payload : Bytes) : Bytes :=
  sender.addr.bytes ++ sender.port.bytes ++ payload

theorem bodyOf_length (sender : SockAddr) (payload : Bytes) :
    (bodyOf sender payload).length = 6 + payload.length := by
  simp [bodyOf, InAddr.bytes, NetPort.bytes]
  omega

/-- The six bytes in front shift every offset of the reader. -/
theorem bodyOf_drop (sender : SockAddr) (payload : Bytes) (n : Nat) :
    (bodyOf sender payload).drop (6 + n) = payload.drop n := by
  rw [Nat.add_comm]
  simp [bodyOf, InAddr.bytes, NetPort.bytes]

theorem exists_bodyOf : ∀ buff : Bytes, 6 ≤ buff.length →
    ∃ sender payload, buff = bodyOf sender payload
  | a :: b :: c :: d :: hi :: lo :: payload, _ => ⟨⟨⟨a, b, c, d⟩, ⟨hi, lo⟩⟩, payload, rfl⟩

/-- Sender and topic, as they stand at the beginning of a line. -/
def heading (sender : SockAddr) (topic : Bytes) : Bytes :=
  inetNtoa sender.addr ++ ascii ":" ++ decimal (ntohs sender.port) ++ ascii " - " ++ topic

/-- A payload without a byte behind the topic field prints nothing. -/
def lineOf (rt : RealText) (sender : SockAddr) (payload : Bytes) : Bytes :=
  if payload.length ≤ 50 then []
  else heading sender (cString (payload.take 50)) ++
    valueText rt (payload.getD 50 0) (payload.drop 51)

theorem parseInput_line (rt : RealText) (sender : SockAddr) (payload : Bytes) :
    parseInput rt (bodyOf sender payload) = some (lineOf rt sender payload) := by
  have size := bodyOf_length sender payload
  have behind := bodyOf_drop sender payload
  have ip : readAt (bodyOf sender payload) 0 4 = some sender.addr.bytes :=
    readAt_some _ 0 4 (by omega)
  have net : readAt (bodyOf sender payload) 4 2 = some sender.port.bytes :=
    readAt_some _ 4 2 (by omega)
  have port : leValue sender.port.bytes.reverse = ntohs sender.port := by
    simp [leValue, ntohs, NetPort.bytes, Nat.add_comm]
  have field : substr (bodyOf sender payload) 6 50 = some (payload.take 50) := by
    rw [substr_some _ 6 50 (by omega), behind 0, List.drop_zero]
  simp only [parseInput, ip, net, port, field, Option.bind_eq_bind, Option.bind_some, lineOf,
    InAddr.bytes]
  split
  next short => rw [if_pos (by omega)]
  next more =>
    have more : 50 < payload.length := by omega
    have type : ((payload.drop 50).take 1).headD 0 = payload.getD 50 0 := by
      rw [headD_take_one, List.drop_eq_getElem_cons more, List.getD_eq_getElem?_getD,
        List.getElem?_eq_getElem more]
      rfl
    rw [if_neg (by omega), readAt_some _ 56 1 (by omega), behind 50, Option.bind_some, type,
      parsePayload_eq _ _ _ 57 (by omega), behind 51, Option.bind_some]
    simp [heading]

/-- `parse_input` gets through exactly when the six address bytes are there. -/
theorem parseInput_isSome (rt : RealText) (buff : Bytes) :
    (parseInput rt buff).isSome ↔ 6 ≤ buff.length := by
  constructor
  · intro through
    by_contra short
    have noPort : readAt buff 4 2 = none := if_neg (by omega)
    cases ip : readAt buff 0 4 <;> simp [parseInput, ip, noPort] at through
  · intro addressed
    obtain ⟨sender, payload, rfl⟩ := exists_bodyOf buff addressed
    rw [parseInput_line]
    rfl

end PubSub.Properties
