import PubSub.Properties.Bodies
import PubSub.Properties.Delivery

/-!
# The lines a subscriber prints

One program builds a body, another reads it with its own arithmetic on offsets. What is
printed for a sender and a payload is known; here it is compared with what was sent.
-/
namespace PubSub.Properties

open General

theorem body_eq (d : Datagram) : d.message.buff = bodyOf d.sender d.payload := rfl

/-- `parse_input` gets through every body the server can forward, without reading beyond
its bounds and without an exception. -/
theorem parseInput_inside (rt : RealText) (d : Datagram) :
    (parseInput rt d.message.buff).isSome = true := by
  rw [body_eq, parseInput_line, Option.isSome_some]

/-- A line begins with the sender and with the topic the datagram was routed by; a STRING
goes on with its payload up to the first NUL. -/
theorem layout_agrees (rt : RealText) (stale : Nat → UInt8) (d : Datagram)
    (typed : 51 ≤ d.payload.length) :
    currentTopic stale d.payload = cString (d.payload.take 50) ∧
      ∃ rest, parseInput rt d.message.buff = some (inetNtoa d.sender.addr ++ ascii ":" ++
          decimal (ntohs d.sender.port) ++ ascii " - " ++ currentTopic stale d.payload ++ rest) ∧
        (d.payload[50]? = some dataString →
          rest = ascii " - STRING - " ++ cString (d.payload.drop 51) ++ ascii "\n") := by
  have topic : currentTopic stale d.payload = cString (d.payload.take 50) :=
    currentTopic_full stale d (by omega)
  refine ⟨topic, valueText rt (d.payload.getD 50 0) (d.payload.drop 51), ?_, ?_⟩
  · rw [body_eq, parseInput_line, lineOf, if_neg (by omega), topic]
    rfl
  · intro string
    rw [List.getD_eq_getElem?_getD, string]
    rfl

/-- For examples without numbers. -/
def noReals : RealText := ⟨fun _ => [], fun _ _ _ => []⟩

/-- A topic that fills its field, in front of an empty string. -/
def fullTopic : Datagram := ⟨⟨⟨10, 0, 0, 1⟩, ⟨4, 210⟩⟩, List.replicate 50 97 ++ [3], by decide⟩

theorem layout_agrees_fullTopic :
    currentTopic (fun _ => 7) fullTopic.payload = cString (fullTopic.payload.take 50) ∧
      ∃ rest, parseInput noReals fullTopic.message.buff =
          some (inetNtoa fullTopic.sender.addr ++ ascii ":" ++
            decimal (ntohs fullTopic.sender.port) ++ ascii " - " ++
            currentTopic (fun _ => 7) fullTopic.payload ++ rest) ∧
        (fullTopic.payload[50]? = some dataString →
          rest = ascii " - STRING - " ++ cString (fullTopic.payload.drop 51) ++ ascii "\n") :=
  layout_agrees noReals (fun _ => 7) fullTopic (by decide)

/-! ## Integers -/

/-- Only negative numbers begin with a minus sign. -/
theorem intText_minus (value : Int) : (intText value).head? = some 45 ↔ value < 0 := by
  cases value with
  | ofNat n =>
    have digits : (toString (Int.ofNat n)).toList = Nat.toDigits 10 n := Nat.toList_repr
    rw [intText, ascii, digits, List.head?_map]
    constructor
    · intro minus
      obtain ⟨ch, first, byte⟩ := Option.map_eq_some_iff.mp minus
      have digit := Nat.isDigit_of_mem_toDigits (by decide) (by decide) (List.mem_of_head? first)
      simp only [Char.isDigit, Bool.and_eq_true, decide_eq_true_eq, ge_iff_le,
        UInt32.le_iff_toNat_le] at digit
      -- A digit's code lies between 48 and 57.
      have code : ch.toNat % 256 = 45 := by simpa using congrArg UInt8.toNat byte
      have low : 48 ≤ ch.toNat := digit.1
      have high : ch.toNat ≤ 57 := digit.2
      omega
    · intro negative
      exact absurd negative (by simp)
  | negSucc n =>
    have text : (toString (Int.negSucc n)).toList = '-' :: Nat.toDigits 10 (n + 1) := by
      change ("-" ++ Nat.repr (n + 1)).toList = _
      rw [String.toList_append, Nat.toList_repr]
      rfl
    rw [intText, ascii, text]
    simp [Int.negSucc_lt_zero]

/-- A body of type INT, with any bytes behind the number. -/
structure IntBody where
  sender : SockAddr
  field : Bytes
  sized : field.length = 50
  sign : UInt8
  magnitude : BitVec 32
  trailing : Bytes

namespace IntBody

variable (b : IntBody)

/-- The magnitude in network byte order. -/
def net : Bytes := (leBytes 4 b.magnitude.toNat).reverse

def bytes : Bytes := bodyOf b.sender (b.field ++ (dataInt :: b.sign :: b.net ++ b.trailing))

/-- The number the body stands for. -/
def value : Int := if b.sign = 0 then b.magnitude.toNat else -(b.magnitude.toNat : Int)

theorem ntohl_net : ntohl b.net = b.magnitude.toNat := by
  rw [ntohl, net, List.reverse_reverse, leValue_leBytes 4 _ b.magnitude.isLt]

/-- The line printed for the body; the number in it is the one computed on `int`. -/
theorem parseInput_bytes (rt : RealText) :
    parseInput rt b.bytes = some (heading b.sender (cString b.field) ++
      (ascii " - INT - " ++ intText (signedValue b.sign b.net).1 ++ ascii "\n")) := by
  have size : b.net.length = 4 := by simp [net]
  have field : (b.field ++ (dataInt :: b.sign :: b.net ++ b.trailing)).take 50 = b.field :=
    List.take_left' b.sized
  have type : (b.field ++ (dataInt :: b.sign :: b.net ++ b.trailing)).getD 50 0 = dataInt := by
    rw [List.getD_eq_getElem?_getD, List.getElem?_append_right (by rw [b.sized]), b.sized]
    rfl
  have data : (b.field ++ (dataInt :: b.sign :: b.net ++ b.trailing)).drop 51 =
      b.sign :: b.net ++ b.trailing := by
    rw [show 51 = 50 + 1 from rfl, ← List.drop_drop, List.drop_left' b.sized]
    rfl
  have number : ((b.sign :: b.net ++ b.trailing).drop 1).take 4 = b.net := by
    simp [← size]
  rw [bytes, parseInput_line, lineOf, field, type, data, valueText, if_pos rfl, number]
  rw [if_neg (by simp [b.sized]), if_neg (by simp [size])]
  rfl

theorem signedValue_small (small : b.magnitude.toNat < 2 ^ 31) :
    signedValue b.sign b.net = (b.value, false) := by
  simp only [signedValue, ntohl_net, toInt32_small _ small, value, bne_iff_ne, ne_eq]
  by_cases positive : b.sign = 0
  · rw [if_neg (by simpa using positive), if_pos positive]
  · rw [if_pos positive, if_neg positive, negateInt32, if_neg (by omega)]

/-- From 2^31 on the `int` has the other sign, or its negation overflows. -/
theorem signedValue_large (large : 2 ^ 31 ≤ b.magnitude.toNat) :
    (signedValue b.sign b.net).2 = true ∨
      ¬ ((signedValue b.sign b.net).1 < 0 ↔ b.value < 0) := by
  have bound := b.magnitude.isLt
  have wrapped : toInt32 b.magnitude.toNat = (b.magnitude.toNat : Int) - 2 ^ 32 := by
    rw [toInt32, Nat.mod_eq_of_lt bound, if_neg (by omega)]
  simp only [signedValue, ntohl_net, wrapped, value, bne_iff_ne, ne_eq]
  by_cases positive : b.sign = 0
  · right
    rw [if_neg (by simpa using positive), if_pos positive]
    omega
  · rw [if_pos positive, if_neg positive, negateInt32]
    split
    · exact .inl rfl
    next inside =>
      right
      omega

/-- The number is printed exactly, and no operation on `int` overflows on the way. -/
structure ShownExactly (rt : RealText) : Prop where
  line : parseInput rt b.bytes = some (heading b.sender (cString b.field) ++
    (ascii " - INT - " ++ intText b.value ++ ascii "\n"))
  inRange : (signedValue b.sign b.net).2 = false

theorem ShownExactly.small {b : IntBody} {rt : RealText} (shown : b.ShownExactly rt) :
    b.magnitude.toNat < 2 ^ 31 := by
  by_contra large
  have text := shown.line
  simp only [parseInput_bytes, Option.some.injEq, List.append_cancel_left_eq,
    List.append_cancel_right_eq] at text
  rcases b.signedValue_large (by omega) with overflow | other
  · rw [shown.inRange] at overflow
    cases overflow
  · -- Equal texts begin alike, so the two numbers have the same sign.
    rw [← intText_minus, ← intText_minus, text] at other
    exact other Iff.rfl

end IntBody

/-- Exactly the magnitudes an `int` can hold are shown exactly. -/
theorem int_exact_iff (rt : RealText) (b : IntBody) :
    b.ShownExactly rt ↔ b.magnitude.toNat < 2 ^ 31 := by
  constructor
  · exact IntBody.ShownExactly.small
  · intro small
    have computed := b.signedValue_small small
    exact ⟨by rw [b.parseInput_bytes, computed], by rw [computed]⟩

/-- Sign byte 0 and magnitude 2^31, which is printed with a minus sign. -/
def firstTooLarge : IntBody where
  sender := default
  field := List.replicate 50 0
  sized := rfl
  sign := 0
  magnitude := 2147483648
  trailing := []

theorem firstTooLarge_misprinted : ¬ ∃ rt, firstTooLarge.ShownExactly rt := by
  rintro ⟨rt, shown⟩
  exact absurd shown.small (by decide)

/-! ## Whole lines -/

/-- Nothing, or a text that ends with a newline. -/
def Whole (text : Bytes) : Prop := text = [] ∨ text.getLast? = some newline

/-- What `parse_input` writes for a body that does not run it off its bounds. -/
def emitted (rt : RealText) (buff : Bytes) : Bytes := (parseInput rt buff).getD []

/-- Standard output after a sequence of bodies. -/
def printed (rt : RealText) (bodies : List Bytes) : Bytes := bodies.flatMap (emitted rt)

/-- The type is known and its value is all there. -/
def ValueComplete (type : UInt8) (room : Nat) : Prop :=
  type = dataInt ∧ 5 ≤ room ∨ type = dataShortReal ∧ 2 ≤ room ∨ type = dataFloat ∧ 6 ≤ room ∨
    type = dataString

/-- There is no type byte, or its value is complete, or the topic brings the newline along. -/
def Completes (buff : Bytes) : Prop :=
  buff.length ≤ 56 ∨ ValueComplete (buff.getD 56 0) (buff.length - 57) ∨
    (cString ((buff.drop 6).take 50)).getLast? = some newline

theorem getLast?_newline (text : Bytes) : (text ++ ascii "\n").getLast? = some newline := by
  rw [List.getLast?_append]
  rfl

theorem valueText_complete (rt : RealText) (type : UInt8) (data : Bytes)
    (complete : ValueComplete type data.length) :
    (valueText rt type data).getLast? = some newline := by
  rcases complete with ⟨rfl, room⟩ | ⟨rfl, room⟩ | ⟨rfl, room⟩ | rfl
  · rw [valueText, if_pos rfl, if_neg (by omega), getLast?_newline]
  · rw [valueText, if_neg (by decide), if_pos rfl, if_neg (by omega), getLast?_newline]
  · rw [valueText, if_neg (by decide), if_neg (by decide), if_pos rfl, if_neg (by omega),
      getLast?_newline]
  · rw [valueText, if_neg (by decide), if_neg (by decide), if_neg (by decide), if_pos rfl,
      getLast?_newline]

theorem valueText_incomplete (rt : RealText) (type : UInt8) (data : Bytes)
    (incomplete : ¬ ValueComplete type data.length) : valueText rt type data = [] := by
  simp only [ValueComplete, not_or, not_and] at incomplete
  obtain ⟨int, shortReal, float, string⟩ := incomplete
  simp only [valueText]
  split
  next type => rw [if_pos (by have := int type; omega)]
  · split
    next type => rw [if_pos (by have := shortReal type; omega)]
    · split
      next type => rw [if_pos (by have := float type; omega)]
      · rfl

/-- The part in front of the topic ends with a blank, so only a topic can end a line. -/
theorem heading_last (sender : SockAddr) (topic : Bytes) :
    (heading sender topic).getLast? = some newline ↔ topic.getLast? = some newline := by
  rw [heading, List.getLast?_append, List.getLast?_append]
  cases topic.getLast? with
  | none => simp [ascii, newline]
  | some byte => rfl

theorem heading_ne_nil (sender : SockAddr) (topic : Bytes) : heading sender topic ≠ [] := by
  simp [heading, ascii]

theorem whole_iff (rt : RealText) (buff : Bytes) (addressed : 6 ≤ buff.length) :
    Whole (emitted rt buff) ↔ Completes buff := by
  obtain ⟨sender, payload, rfl⟩ := exists_bodyOf buff addressed
  have type : (bodyOf sender payload).getD 56 0 = payload.getD 50 0 := by
    simp [bodyOf, InAddr.bytes, NetPort.bytes]
  have room : (payload.drop 51).length = 6 + payload.length - 57 := by
    rw [List.length_drop]
    omega
  rw [emitted, parseInput_line, Option.getD_some, lineOf, Completes, bodyOf_length, type,
    bodyOf_drop sender payload 0, ← room, List.drop_zero]
  by_cases short : payload.length ≤ 50
  · rw [if_pos short]
    exact iff_of_true (.inl rfl) (.inl (by omega))
  · rw [if_neg short]
    have long : ¬ 6 + payload.length ≤ 56 := by omega
    by_cases complete : ValueComplete (payload.getD 50 0) (payload.drop 51).length
    · apply iff_of_true
      · right
        rw [List.getLast?_append, valueText_complete rt _ _ complete]
        rfl
      · exact .inr (.inl complete)
    · -- Without a value the line is its heading.
      rw [valueText_incomplete rt _ _ complete, List.append_nil, Whole, heading_last]
      simp only [heading_ne_nil, long, complete, false_or]

theorem Whole.append {front back : Bytes} (first : Whole front) (second : Whole back) :
    Whole (front ++ back) := by
  rcases second with rfl | newline
  · rwa [List.append_nil]
  · right
    rw [List.getLast?_append, newline]
    rfl

theorem Whole.right {front back : Bytes} (both : Whole (front ++ back)) : Whole back := by
  rcases both with empty | ends
  · exact .inl (List.append_eq_nil_iff.mp empty).2
  · cases last : back.getLast? with
    | none => exact .inl (List.getLast?_eq_none_iff.mp last)
    | some byte =>
      right
      rw [List.getLast?_append, last] at ends
      rw [last]
      exact ends

theorem printed_whole (rt : RealText) (bodies : List Bytes)
    (whole : ∀ body ∈ bodies, Whole (emitted rt body)) : Whole (printed rt bodies) := by
  induction bodies with
  | nil => exact .inl rfl
  | cons body bodies ih =>
    rw [List.forall_mem_cons] at whole
    exact whole.1.append (ih whole.2)

/-- Each message prints a whole line or nothing, and standard output stands at the
beginning of a line after each message, exactly when every body completes its line. -/
theorem lines_whole_iff (rt : RealText) (bodies : List Bytes)
    (addressed : ∀ body ∈ bodies, 6 ≤ body.length) :
    ((∀ body ∈ bodies, Whole (emitted rt body)) ↔ ∀ body ∈ bodies, Completes body) ∧
      ((∀ front, front <+: bodies → Whole (printed rt front)) ↔ ∀ body ∈ bodies, Completes body) := by
  have each : (∀ body ∈ bodies, Whole (emitted rt body)) ↔ ∀ body ∈ bodies, Completes body :=
    forall₂_congr fun body member => whole_iff rt body (addressed body member)
  refine ⟨each, ?_⟩
  rw [← each]
  constructor
  · intro fronts body member
    -- The message ends what has been printed once it has been handled.
    obtain ⟨before, behind, shape⟩ := List.append_of_mem member
    have whole := fronts (before ++ [body]) ⟨behind, by simp [shape]⟩
    rw [printed, List.flatMap_append, List.flatMap_singleton] at whole
    exact whole.right
  · intro whole front inside
    exact printed_whole rt front fun body member => whole body (inside.subset member)

/-- An empty string under a topic that fills its field, then an empty datagram. -/
theorem lines_whole_two : Whole (printed noReals [fullTopic.message.buff, List.replicate 6 0]) := by
  have completes : ∀ body ∈ [fullTopic.message.buff, List.replicate 6 0], Completes body := by
    unfold Completes ValueComplete
    decide
  exact (lines_whole_iff noReals [fullTopic.message.buff, List.replicate 6 0] (by decide)).2.mpr
    completes _ (List.prefix_refl _)

/-- A type byte that names no type leaves the line open. -/
theorem unknownType_open : ¬ ∃ rt, Whole (emitted rt (List.replicate 56 0 ++ [9])) := by
  rintro ⟨rt, whole⟩
  rw [whole_iff rt _ (by decide), Completes, ValueComplete] at whole
  exact absurd whole (by decide)

end PubSub.Properties
