import PubSub.Subscriber.Client

/-!
# Requests between subscriber and server

The subscriber copies the topic into the record after it has set the type. A
topic of 52 bytes or more runs over the type field behind it.
-/
namespace PubSub.Properties

open General

/-- A word of a command line. -/
structure Token where
  text : Bytes
  nonempty : text ≠ []
  plain : ∀ byte ∈ text, byte ≠ 0 ∧ isDelimiter byte = false

/-- A client id, as the README limits it. -/
structure UserId where
  text : Bytes
  short : text.length ≤ 10
  plain : ∀ byte ∈ text, byte ≠ 0

/-- A topic whose copy ends inside the record. -/
structure TopicToken extends Token where
  inside : text.length ≤ 55

/-- The command lines that send a subscription request. -/
inductive UserCommand where
  | subscribe (topic : TopicToken) (sf : Option Token)
  | unsubscribe (topic : TopicToken)

namespace UserCommand

def words : UserCommand → List Bytes
  | .subscribe topic sf => ascii "subscribe" :: topic.text :: (sf.map Token.text).toList
  | .unsubscribe topic => [ascii "unsubscribe", topic.text]

def command : UserCommand → Command
  | .subscribe .. => .subscribe
  | .unsubscribe _ => .unsubscribe

def topic : UserCommand → TopicToken
  | .subscribe topic _ => topic
  | .unsubscribe topic => topic

/-- The flag the user asked for: the third word is a number other than zero. -/
def flag : UserCommand → Bool
  | .subscribe _ (some word) => numeral word.text ≠ 0
  | _ => false

end UserCommand

/-- The words with blanks in between and a newline behind. -/
def commandLine : List Bytes → Bytes
  | [] => [newline]
  | [word] => word ++ [newline]
  | word :: words => word ++ space :: commandLine words

/-- The one record a command line sends. -/
def sentRequest (id : Bytes) (line : Bytes) : Option TcpRequest :=
  match handleUserInput line id with
  | some ⟨[bytes], _, _⟩ =>
    if size : bytes.length = sizeofTcpRequest then some ⟨bytes, size⟩ else none
  | _ => none

/-- What the server reads is what the user typed. -/
def RoundTrip (id : UserId) (u : UserCommand) : Prop :=
  ∃ r ∈ sentRequest id.text (commandLine u.words),
    r.type = u.command ∧ r.clientId = id.text ∧ r.topic = u.topic.text.take 50 ∧
      (u.command = .subscribe → r.sf = u.flag)

instance (id : UserId) (u : UserCommand) : Decidable (RoundTrip id u) :=
  inferInstanceAs (Decidable (∃ r ∈ sentRequest id.text (commandLine u.words), _))

/-! ## Words of a line -/

private theorem commandLine_plain (words : List Bytes)
    (plain : ∀ word ∈ words, ∀ byte ∈ word, byte ≠ 0) : ∀ byte ∈ commandLine words, byte ≠ 0 := by
  induction words with
  | nil => decide
  | cons word words ih =>
    rw [List.forall_mem_cons] at plain
    have behind := ih plain.2
    cases words with
    | nil =>
      simp only [commandLine, List.mem_append, List.mem_singleton]
      rintro byte (inside | rfl)
      · exact plain.1 byte inside
      · decide
    | cons next words =>
      simp only [commandLine, List.mem_append, List.mem_cons]
      rintro byte (inside | rfl | later)
      · exact plain.1 byte inside
      · decide
      · exact behind byte later

private theorem splitOnP_commandLine (words : List Bytes)
    (plain : ∀ word ∈ words, ∀ byte ∈ word, isDelimiter byte = false) (some_word : words ≠ []) :
    (commandLine words).splitOnP isDelimiter = words ++ [[]] := by
  induction words with
  | nil => exact absurd rfl some_word
  | cons word words ih =>
    rw [List.forall_mem_cons] at plain
    -- The newline behind the last word leaves an empty piece.
    cases words with
    | nil =>
      rw [commandLine, List.splitOnP_append_cons_of_forall_mem plain.1 newline (by decide)]
      rfl
    | cons next words =>
      rw [commandLine, List.splitOnP_append_cons_of_forall_mem plain.1 space (by decide), ih plain.2 (by simp)]
      · rfl
      · simp

/-- `string_to_argv` finds the words of a line again. -/
theorem stringToArgv_commandLine (words : List Bytes) (some_word : words ≠ [])
    (plain : ∀ word ∈ words, word ≠ [] ∧ ∀ byte ∈ word, byte ≠ 0 ∧ isDelimiter byte = false) :
    stringToArgv (commandLine words) = words := by
  have whole : cString (commandLine words) = commandLine words := by
    apply List.takeWhile_eq_self_iff.mpr
    simpa using commandLine_plain words fun word member byte inside => ((plain word member).2 byte inside).1
  rw [stringToArgv, whole, splitOnP_commandLine words
    (fun word member byte inside => ((plain word member).2 byte inside).2) some_word]
  simpa using fun word member => (plain word member).1

theorem stringToArgv_words (u : UserCommand) : stringToArgv (commandLine u.words) = u.words := by
  apply stringToArgv_commandLine
  · cases u <;> simp [UserCommand.words]
  · intro word member
    have keyword : ∀ text ∈ [ascii "subscribe", ascii "unsubscribe"],
        text ≠ [] ∧ ∀ byte ∈ text, byte ≠ 0 ∧ isDelimiter byte = false := by decide
    cases u with
    | subscribe topic sf =>
      simp only [UserCommand.words, List.mem_cons, Option.mem_toList, Option.map_eq_some_iff] at member
      rcases member with rfl | rfl | ⟨token, _, rfl⟩
      · exact keyword _ (by simp)
      · exact ⟨topic.nonempty, topic.plain⟩
      · exact ⟨token.nonempty, token.plain⟩
    | unsubscribe topic =>
      simp only [UserCommand.words, List.mem_cons, List.not_mem_nil, or_false] at member
      rcases member with rfl | rfl
      · exact keyword _ (by simp)
      · exact ⟨topic.nonempty, topic.plain⟩

/-! ## The record -/

/-- The record with its id and type. -/
def typed (id : Bytes) (word : Nat) : Bytes :=
  store (store emptyRequest offsetId (id ++ [0])) offsetType (leBytes 4 word)

/-- The record before the flag is set: the topic is copied last. -/
def written (id topic : Bytes) (word : Nat) : Bytes :=
  store (typed id word) offsetTopic (topic ++ [0])

section

variable (id topic : Bytes) (word : Nat) (short : id.length ≤ 10)
include short

private theorem named_length :
    (store emptyRequest offsetId (id ++ [0])).length = sizeofTcpRequest := by
  apply store_length
  simp only [offsetId, emptyRequest, List.length_append, List.length_singleton,
    List.length_replicate, sizeofTcpRequest]
  omega

private theorem typed_length : (typed id word).length = sizeofTcpRequest := by
  have named := named_length id short
  rw [typed, store_length, named]
  rw [named, leBytes_length]
  decide

private theorem typed_type (i : Nat) (here : i < 4) :
    (typed id word)[64 + i]? = (leBytes 4 word)[i]? := by
  apply store_inside
  · rw [named_length id short, leBytes_length]
    decide
  · rwa [leBytes_length]

private theorem typed_id (i : Nat) (here : i ≤ id.length) : (typed id word)[i]? = (id ++ [0])[i]? := by
  have fits : offsetId + (id ++ [0]).length ≤ emptyRequest.length := by
    simp only [offsetId, emptyRequest, List.length_append, List.length_singleton,
      List.length_replicate, sizeofTcpRequest]
    omega
  have type : offsetType = 64 := rfl
  have named := store_inside emptyRequest offsetId (id ++ [0]) fits i (by simp; omega)
  rw [show offsetId + i = i from Nat.zero_add i] at named
  rw [typed, store_outside, named]
  · rw [named_length id short, leBytes_length]
    decide
  · omega

variable (inside : topic.length ≤ 55)
include inside

private theorem topic_fits : offsetTopic + (topic ++ [0]).length ≤ (typed id word).length := by
  rw [typed_length id word short, List.length_append, List.length_singleton]
  simp only [offsetTopic, sizeofTcpRequest]
  omega

theorem written_length : (written id topic word).length = sizeofTcpRequest := by
  rw [written, store_length _ _ _ (topic_fits id topic word short inside), typed_length id word short]

/-- The topic and its terminator lie over everything else. -/
theorem written_topic (i : Nat) (here : i ≤ topic.length) :
    (written id topic word)[12 + i]? = (topic ++ [0])[i]? :=
  store_inside _ _ _ (topic_fits id topic word short inside) i (by simp; omega)

theorem written_elsewhere (i : Nat) (outside : i < 12 ∨ 12 + topic.length < i) :
    (written id topic word)[i]? = (typed id word)[i]? := by
  have twelve : offsetTopic = 12 := rfl
  apply store_outside _ _ _ (topic_fits id topic word short inside)
  rw [List.length_append, List.length_singleton]
  omega

/-- The four bytes of the type field, as far as the topic has left them. -/
theorem written_type (known : word < 256) :
    leValue (((written id topic word).drop offsetType).take 4) =
      if topic.length ≤ 51 then word else leValue (topic.drop 52) := by
  split
  next fits =>
    -- The terminator stands at offset 63 at most, in front of the type.
    have field : ((written id topic word).drop offsetType).take 4 = leBytes 4 word := by
      apply List.ext_getElem?
      intro i
      by_cases here : i < 4
      · rw [List.getElem?_take_of_lt here, List.getElem?_drop, offsetType,
          written_elsewhere id topic word short inside _ (by omega), typed_type id word short i here]
      · rw [List.getElem?_eq_none (by simp; omega), List.getElem?_eq_none (by simp; omega)]
    rw [field, leValue_leBytes 4 word (by omega)]
  next long =>
    -- What the topic leaves of the type are its high bytes, and they are zero.
    have high : ∀ i, 0 < i → i < 4 → (leBytes 4 word)[i]? = some 0 := by
      intro i positive here
      have small : word / 256 = 0 := by omega
      obtain rfl | rfl | rfl : i = 1 ∨ i = 2 ∨ i = 3 := by omega
      all_goals simp [leBytes, small]
    have field : ((written id topic word).drop offsetType).take 4 =
        topic.drop 52 ++ List.replicate (56 - topic.length) 0 := by
      apply List.ext_getElem?
      intro i
      by_cases here : i < 4
      · rw [List.getElem?_take_of_lt here, List.getElem?_drop, offsetType]
        by_cases covered : 52 + i ≤ topic.length
        · have place : 64 + i = 12 + (52 + i) := by omega
          rw [place, written_topic id topic word short inside _ covered]
          by_cases last : 52 + i < topic.length
          · rw [List.getElem?_append_left last, List.getElem?_append_left (by simp; omega),
              List.getElem?_drop]
          · rw [List.getElem?_append_right (by omega), List.getElem?_append_right (by simp; omega),
              List.getElem?_replicate, if_pos (by simp; omega)]
            simp [show 52 + i - topic.length = 0 by omega]
        · rw [written_elsewhere id topic word short inside _ (by omega), typed_type id word short i here,
            high i (by omega) here, List.getElem?_append_right (by simp; omega),
            List.getElem?_replicate, if_pos (by simp; omega)]
      · rw [List.getElem?_eq_none (by simp; omega), List.getElem?_eq_none (by simp; omega)]
    rw [field, leValue_append_zeros]

end

/-- A record that is as it was written, the flag apart. -/
structure Carries (r : TcpRequest) (id topic : Bytes) (word : Nat) : Prop where
  front : ∀ i < 63, r.bytes[i]? = (written id topic word)[i]?
  back : r.bytes.drop offsetType = (written id topic word).drop offsetType

section

variable {r : TcpRequest} {id topic : Bytes} {word : Nat} (carries : Carries r id topic word)
  (short : id.length ≤ 10) (inside : topic.length ≤ 55)
include carries short inside

theorem clientId_of_carries (plain : ∀ byte ∈ id, byte ≠ 0) : r.clientId = id := by
  have bytes : ∀ i ≤ id.length, r.bytes[i]? = (id ++ [0])[i]? := by
    intro i here
    rw [carries.front i (by omega), written_elsewhere id topic word short inside i (by omega),
      typed_id id word short i here]
  have size : r.bytes.length = 68 := r.size
  apply cString_eq _ _ plain
  · intro i here
    rw [List.getElem?_drop, List.getElem?_set_ne (by simp only [offsetId]; omega),
      show offsetId + i = i from Nat.zero_add i, bytes i (by omega), List.getElem?_append_left here]
  · rw [List.getElem?_drop, show offsetId + id.length = id.length from Nat.zero_add _]
    -- The terminator is the server's own for an id of ten bytes, else the one sent.
    by_cases full : id.length = 10
    · rw [full, show offsetId + 10 = 10 from rfl, List.getElem?_set_self (by omega)]
    · rw [List.getElem?_set_ne (by simp only [offsetId]; omega), bytes _ (Nat.le_refl _)]
      simp

theorem topic_of_carries (plain : ∀ byte ∈ topic, byte ≠ 0) : r.topic = topic.take 50 := by
  have bytes : ∀ i < 50, i ≤ topic.length → r.bytes[12 + i]? = (topic ++ [0])[i]? := by
    intro i front here
    rw [carries.front _ (by omega), written_topic id topic word short inside i here]
  have size : r.bytes.length = 68 := r.size
  have length : (topic.take 50).length = min 50 topic.length := List.length_take
  apply cString_eq _ _ fun byte member => plain byte (List.mem_of_mem_take member)
  · intro i here
    rw [List.getElem?_drop, List.getElem?_set_ne (by simp only [offsetTopic]; omega), offsetTopic,
      bytes i (by omega) (by omega), List.getElem?_append_left (by omega),
      List.getElem?_take_of_lt (by omega)]
  · rw [List.getElem?_drop, length]
    -- The server's own NUL ends a topic of 50 bytes or more.
    by_cases cut : 50 ≤ topic.length
    · rw [Nat.min_eq_left cut, List.getElem?_set_self (by simp only [offsetTopic]; omega)]
    · rw [Nat.min_eq_right (by omega), List.getElem?_set_ne (by simp only [offsetTopic]; omega),
        offsetTopic, bytes _ (by omega) (Nat.le_refl _)]
      simp

theorem type_of_carries (known : word < 256) :
    r.type = .ofWord (if topic.length ≤ 51 then word else leValue (topic.drop 52)) := by
  rw [TcpRequest.type, carries.back, written_type id topic word short inside known]

end

/-! ## What becomes of type and flag -/

namespace UserCommand

/-- The copy of the topic ends before the type, or puts the right code there. -/
def TypeSurvives (u : UserCommand) : Prop :=
  u.topic.text.length ≤ 51 ∨ u.topic.text.drop 52 = [UInt8.ofNat u.command.word]

/-- `atoi` keeps only 32 bits of the third word. -/
def FlagSurvives : UserCommand → Prop
  | .subscribe _ (some word) =>
    numeral word.text = 0 ∨ clampToLong (numeral word.text) % 2 ^ 32 ≠ 0
  | _ => True

end UserCommand

private theorem ofWord_command (u : UserCommand) (n : Nat) :
    Command.ofWord n = u.command ↔ n = u.command.word := by
  cases u <;> unfold Command.ofWord <;> split <;> simp_all [UserCommand.command, Command.word]

private theorem leValue_eq_byte (bytes : Bytes) (byte : UInt8) (plain : ∀ b ∈ bytes, b ≠ 0)
    (positive : byte ≠ 0) : leValue bytes = byte.toNat ↔ bytes = [byte] := by
  have bound := byte.toNat_lt
  constructor
  · intro value
    cases bytes with
    | nil => exact absurd (UInt8.toNat_inj.mp value.symm) positive
    | cons first rest =>
      have firstBound := first.toNat_lt
      cases rest with
      | nil =>
        simp only [leValue, Nat.mul_zero, Nat.add_zero] at value
        rw [UInt8.toNat_inj.mp value]
      | cons second rest =>
        -- A second byte other than zero makes the number 256 at least.
        have nonzero : second.toNat ≠ 0 := fun zero =>
          plain second (by simp) (UInt8.toNat_inj.mp zero)
        simp only [leValue] at value
        omega
  · rintro rfl
    simp [leValue]

theorem type_iff (u : UserCommand) (id : UserId) (r : TcpRequest)
    (carries : Carries r id.text u.topic.text u.command.word) :
    r.type = u.command ↔ u.TypeSurvives := by
  have code : u.command.word < 256 ∧ UInt8.ofNat u.command.word ≠ 0 ∧
      (UInt8.ofNat u.command.word).toNat = u.command.word := by
    cases u <;> simp [UserCommand.command, Command.word]
  rw [type_of_carries carries id.short u.topic.inside code.1, ofWord_command, UserCommand.TypeSurvives]
  have plain : ∀ byte ∈ u.topic.text.drop 52, byte ≠ 0 :=
    fun byte member => (u.topic.plain byte (List.mem_of_mem_drop member)).1
  -- Topic bytes are not zero, so the type they make is a small number only if it is one byte.
  have behind := leValue_eq_byte _ _ plain code.2.1
  rw [code.2.2] at behind
  split
  next fits => simp [fits]
  next long => simp [long, behind]

theorem atoi_ne_zero (word : Bytes) : atoi word ≠ 0 ↔ clampToLong (numeral word) % 2 ^ 32 ≠ 0 := by
  unfold atoi toInt32
  split <;> omega

/-! ## What is sent -/

section

variable (id : UserId) (topic : TopicToken) (word : Nat)

private theorem strcpy_id :
    strcpy emptyRequest offsetId id.text = some (store emptyRequest offsetId (id.text ++ [0])) := by
  have short := id.short
  apply if_pos
  simp only [offsetId, emptyRequest, sizeofTcpRequest, List.length_replicate]
  omega

private theorem strcpy_topic : strcpy (typed id.text word) offsetTopic topic.text =
    some (written id.text topic.text word) := by
  have inside := topic.inside
  apply if_pos
  rw [typed_length id.text word id.short]
  simp only [offsetTopic, sizeofTcpRequest]
  omega

private theorem sent_unsubscribe :
    ∃ r, sentRequest id.text (commandLine (UserCommand.unsubscribe topic).words) = some r ∧
      Carries r id.text topic.text Command.unsubscribe.word := by
  have size := written_length id.text topic.text Command.unsubscribe.word id.short topic.inside
  have sent : handleUserInput (commandLine (UserCommand.unsubscribe topic).words) id.text =
      some ⟨[written id.text topic.text Command.unsubscribe.word],
        ascii "Unsubscribed from topic" ++ topic.text ++ ascii "\n", false⟩ := by
    have copied := strcpy_topic id topic Command.unsubscribe.word
    rw [typed] at copied
    -- The last of the three commands, with two words.
    rw [handleUserInput, stringToArgv_words]
    simp only [UserCommand.words, processUserCommand]
    rw [if_neg (by decide), if_neg (by decide), if_pos trivial, if_neg (by simp), strcpy_id id]
    simp only [Option.bind_eq_bind, Option.bind_some, List.getD_cons_succ, List.getD_cons_zero, copied]
  refine ⟨⟨_, size⟩, ?_, fun _ _ => rfl, rfl⟩
  simp only [sentRequest, sent, size, dite_true]

/-- The `int` that is stored in the flag. -/
def flagWord : Option Token → Int
  | some word => atoi word.text
  | none => 0

private theorem sent_subscribe (sf : Option Token) :
    ∃ r, sentRequest id.text (commandLine (UserCommand.subscribe topic sf).words) = some r ∧
      Carries r id.text topic.text Command.subscribe.word ∧ r.sf = decide (flagWord sf ≠ 0) := by
  have length := written_length id.text topic.text Command.subscribe.word id.short topic.inside
  -- The flag is stored last, over the byte where a topic of 51 bytes ends.
  generalize flagged : (if flagWord sf ≠ 0 then (1 : UInt8) else 0) = flag
  have fits : offsetSf + [flag].length ≤
      (written id.text topic.text Command.subscribe.word).length := by
    rw [length, List.length_singleton]
    decide
  have size := store_length _ _ _ fits
  rw [length] at size
  have sent : handleUserInput (commandLine (UserCommand.subscribe topic sf).words) id.text =
      some ⟨[store (written id.text topic.text Command.subscribe.word) offsetSf [flag]],
        ascii "Subscribed to topic" ++ topic.text ++ ascii "\n", false⟩ := by
    have copied := strcpy_topic id topic Command.subscribe.word
    rw [typed] at copied
    -- The second of the three commands, with at least two words.
    rw [handleUserInput, stringToArgv_words, ← flagged]
    simp only [UserCommand.words, processUserCommand]
    rw [if_neg (by decide), if_pos trivial, if_neg (by simp), strcpy_id id]
    simp only [Option.bind_eq_bind, Option.bind_some, List.getD_cons_succ, List.getD_cons_zero, copied]
    cases sf <;> rfl
  refine ⟨⟨_, size⟩, ?_, ⟨?_, ?_⟩, ?_⟩
  · simp only [sentRequest, sent, size, dite_true]
  · -- In front of the flag and behind it the record is as it was written.
    intro i front
    exact store_outside _ _ _ fits i (.inl front)
  · apply List.ext_getElem?
    intro i
    rw [List.getElem?_drop, List.getElem?_drop]
    apply store_outside _ _ _ fits
    right
    simp [offsetSf, offsetType]
  · have stored := store_inside _ _ _ fits 0 (by simp)
    simp only [Nat.add_zero, List.getElem?_cons_zero] at stored
    rw [TcpRequest.sf, List.getD_eq_getElem?_getD, stored, ← flagged]
    split
    next nonzero => simp [nonzero]
    next zero => simp [zero]

end

private theorem flag_iff (topic : TopicToken) (sf : Option Token) :
    decide (flagWord sf ≠ 0) = (UserCommand.subscribe topic sf).flag ↔
      (UserCommand.subscribe topic sf).FlagSurvives := by
  cases sf with
  | none => simp [flagWord, UserCommand.flag, UserCommand.FlagSurvives]
  | some word =>
    have zero : numeral word.text = 0 → clampToLong (numeral word.text) % 2 ^ 32 = 0 := by
      intro zero
      rw [zero]
      rfl
    simp only [flagWord, UserCommand.flag, UserCommand.FlagSurvives, decide_eq_decide, atoi_ne_zero]
    tauto

/-- The server reads what the user typed exactly when the topic leaves the type alone,
or happens to write the right one, and `atoi` does not turn the flag into zero. The line
goes straight to `process_user_command` here. `fgets`, which hands over no more of a line
than its buffer holds, comes in front of that. -/
theorem roundTrip_iff (id : UserId) (u : UserCommand) :
    RoundTrip id u ↔ u.TypeSurvives ∧ u.FlagSurvives := by
  have plain : ∀ byte ∈ u.topic.text, byte ≠ 0 := fun byte member => (u.topic.plain byte member).1
  cases u with
  | subscribe topic sf =>
    obtain ⟨r, sent, carries, flag⟩ := sent_subscribe id topic sf
    have type := type_iff (.subscribe topic sf) id r carries
    have name := clientId_of_carries carries id.short topic.inside id.plain
    have text := topic_of_carries carries id.short topic.inside plain
    simp only [RoundTrip, sent, Option.mem_def, Option.some.injEq, exists_eq_left', name, text, flag,
      UserCommand.command, UserCommand.topic, forall_const, true_and, flag_iff topic sf]
    exact and_congr_left' type
  | unsubscribe topic =>
    obtain ⟨r, sent, carries⟩ := sent_unsubscribe id topic
    have type := type_iff (.unsubscribe topic) id r carries
    have name := clientId_of_carries carries id.short topic.inside id.plain
    have text := topic_of_carries carries id.short topic.inside plain
    simp only [RoundTrip, sent, Option.mem_def, Option.some.injEq, exists_eq_left', name, text,
      UserCommand.command, UserCommand.topic, UserCommand.FlagSurvives, and_true,
      reduceCtorEq, false_implies]
    exact type

/-- A topic of 52 bytes: its terminator makes the request an EXIT. -/
def fiftyTwo : TopicToken where
  text := List.replicate 52 97
  nonempty := by decide
  plain := by decide
  inside := by decide

theorem fiftyTwo_exits :
    ¬ RoundTrip ⟨ascii "C1", by decide, by decide⟩ (.subscribe fiftyTwo none) := by
  decide

end PubSub.Properties
