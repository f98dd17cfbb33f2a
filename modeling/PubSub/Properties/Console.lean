import PubSub.Common.Console
import PubSub.General.Words
import PubSub.Properties.Requests

/-!
# Commands from standard input

The buffer that `fgets` has filled is cut up in place, and `argv` points into it. What the
pointers point at when the last call returns are the words of the line.
-/
namespace PubSub.Properties

open General

/-! ## One call of `strtok` -/

section

variable {front seps word later tail : Bytes}

theorem text_at {text : Bytes} (clean : ∀ byte ∈ text, byte ≠ 0) :
    cString ((front ++ (text ++ 0 :: tail)).drop front.length) = text := by
  rw [List.drop_left, cString_append_nul text tail clean]

/-- There is nothing but delimiters up to the end of the text. -/
theorem next_none (separate : ∀ byte ∈ seps, isDelimiter byte = true)
    (clean : ∀ byte ∈ seps, byte ≠ 0) :
    (⟨front ++ (seps ++ 0 :: tail), front.length⟩ : Strtok).next =
      (none, ⟨front ++ (seps ++ 0 :: tail), front.length + seps.length⟩) := by
  have nobody : ∀ byte ∈ ([] : Bytes).head?, isDelimiter byte = false := by simp
  obtain ⟨skipped, rest⟩ := run_append separate nobody
  rw [List.append_nil] at skipped rest
  simp only [Strtok.next, text_at clean, skipped, rest, if_true]

section

variable (separate : ∀ byte ∈ seps, isDelimiter byte = true) (nonempty : word ≠ [])
  (plain : ∀ byte ∈ word, isDelimiter byte = false)

include separate nonempty plain

private theorem next_word (stops : ∀ byte ∈ later.head?, isDelimiter byte = true)
    (clean : ∀ byte ∈ seps ++ (word ++ later), byte ≠ 0) (memory : Bytes)
    (shape : memory = front ++ (seps ++ (word ++ later) ++ 0 :: tail)) :
    (⟨memory, front.length⟩ : Strtok).next = (some (front.length + seps.length),
      if later = [] then ⟨memory, front.length + seps.length + word.length⟩
      else ⟨memory.set (front.length + seps.length + word.length) 0,
        front.length + seps.length + word.length + 1⟩) := by
  have first : ∀ byte ∈ (word ++ later).head?, isDelimiter byte = false := by
    intro byte head
    rw [List.head?_append_of_ne_nil _ nonempty] at head
    exact plain byte (List.mem_of_mem_head? head)
  have letters : ∀ byte ∈ word, (!isDelimiter byte) = true := by
    intro byte mem
    rw [plain byte mem]
    rfl
  have ends : ∀ byte ∈ later.head?, (!isDelimiter byte) = false := by
    intro byte head
    rw [stops byte head]
    rfl
  have text : cString (memory.drop front.length) = seps ++ (word ++ later) := by
    rw [shape, text_at clean]
  obtain ⟨skipped, rest⟩ := run_append separate first
  obtain ⟨read, behind⟩ := run_append letters ends
  simp only [Strtok.next, text, skipped, rest, read, behind]
  rw [if_neg (by simp [nonempty])]
  split <;> rfl

/-- The last word is left as it is, the NUL behind it being there already. -/
theorem next_last (front tail : Bytes) (clean : ∀ byte ∈ seps ++ word, byte ≠ 0) :
    (⟨front ++ (seps ++ word ++ 0 :: tail), front.length⟩ : Strtok).next =
      (some (front.length + seps.length),
        ⟨front ++ (seps ++ word ++ 0 :: tail), front.length + seps.length + word.length⟩) := by
  have nothing : ∀ byte ∈ ([] : Bytes).head?, isDelimiter byte = true := by simp
  have next := next_word separate nonempty plain nothing (by rwa [List.append_nil])
    (front ++ (seps ++ word ++ 0 :: tail)) (by rw [List.append_nil])
  rwa [if_pos rfl] at next

/-- The separator behind a word becomes its NUL. -/
theorem next_before (front tail : Bytes) {sep : UInt8} (separates : isDelimiter sep = true)
    (clean : ∀ byte ∈ seps ++ (word ++ sep :: later), byte ≠ 0) :
    (⟨front ++ (seps ++ (word ++ sep :: later) ++ 0 :: tail), front.length⟩ : Strtok).next =
      (some (front.length + seps.length),
        ⟨(front ++ seps ++ word) ++ 0 :: (later ++ 0 :: tail),
          front.length + seps.length + word.length + 1⟩) := by
  have behind : ∀ byte ∈ (sep :: later).head?, isDelimiter byte = true := by
    rintro byte ⟨⟩
    exact separates
  have place : front.length + seps.length + word.length = (front ++ seps ++ word).length := by
    simp only [List.length_append]
  have memory : front ++ (seps ++ (word ++ sep :: later) ++ 0 :: tail) =
      (front ++ seps ++ word) ++ sep :: (later ++ 0 :: tail) := by
    simp only [List.append_assoc, List.cons_append]
  have next := next_word separate nonempty plain behind clean _ memory.symm
  rw [memory, next, if_neg (List.cons_ne_nil _ _), place, List.set_append_right _ _ le_rfl, Nat.sub_self]
  rfl

end

end

/-! ## The loop -/

/-- Where the pointers of `argv` point to. -/
def wordsAt (argv : List Nat) (memory : Bytes) : List Bytes := argv.map fun p => cString (memory.drop p)

theorem wordsAt_cons (p : Nat) (argv : List Nat) (memory : Bytes) :
    wordsAt (p :: argv) memory = cString (memory.drop p) :: wordsAt argv memory := rfl

theorem word_at {word : Bytes} (clean : ∀ byte ∈ word, byte ≠ 0) (front seps behind : Bytes) :
    cString ((front ++ (seps ++ (word ++ 0 :: behind))).drop (front.length + seps.length)) = word := by
  rw [← List.append_assoc, ← List.length_append, text_at clean]

theorem argvLoop_word {capacity fuel p : Nat} {s s' : Strtok} {argv found : List Nat} {memory : Bytes}
    (next : s.next = (some p, s')) (room : argv.length < capacity)
    (looped : argvLoop capacity fuel s' (argv ++ [p]) = some (argv ++ [p] ++ found, memory)) :
    argvLoop capacity (fuel + 1) s argv = some (argv ++ p :: found, memory) := by
  rw [argvLoop, next]
  simp only [if_pos room, looped, List.append_assoc, List.singleton_append]

/-- The loop finds the words of the text that begins where `strtok` goes on, and changes nothing
but this text. -/
theorem argvLoop_spec (capacity fuel : Nat) (argv : List Nat) (front text tail : Bytes)
    (clean : ∀ byte ∈ text, byte ≠ 0) (enough : text.length < fuel)
    (room : argv.length + (words isDelimiter text).length ≤ capacity) :
    ∃ found left, argvLoop capacity fuel ⟨front ++ (text ++ 0 :: tail), front.length⟩ argv =
        some (argv ++ found, front ++ (left ++ 0 :: tail)) ∧
      left.length = text.length ∧
      wordsAt found (front ++ (left ++ 0 :: tail)) = words isDelimiter text := by
  induction fuel generalizing argv front text with
  | zero => omega
  | succ fuel ih =>
    have shape : FirstWord isDelimiter text := firstWord text
    cases shape with
    | none seps separate =>
      have nothing : words isDelimiter text = [] := by
        have skipped := words_skip separate []
        rwa [List.append_nil] at skipped
      refine ⟨[], text, ?_, rfl, nothing.symm⟩
      rw [argvLoop, next_none separate clean, List.append_nil]
    | last seps word separate nonempty plain =>
      have single : words isDelimiter (seps ++ word) = [word] := by
        rw [words_skip separate, words_single nonempty plain]
      have shorter := List.length_pos_iff.mpr nonempty
      rw [single, List.length_singleton] at room
      rw [List.length_append] at enough
      have next := next_last separate nonempty plain front tail clean
      have memory : front ++ (seps ++ word ++ 0 :: tail) = front ++ seps ++ word ++ ([] ++ 0 :: tail) := by
        simp only [List.append_assoc, List.nil_append]
      have place : front.length + seps.length + word.length = (front ++ seps ++ word).length := by
        simp only [List.length_append]
      -- The next call begins at the NUL.
      rw [memory, place] at next
      obtain ⟨found, left, looped, size, rest⟩ := ih (argv ++ [front.length + seps.length])
        (front ++ seps ++ word) [] (by simp) (by rw [List.length_nil]; omega)
        (by rw [List.length_append]; exact room)
      obtain rfl : left = [] := List.eq_nil_of_length_eq_zero size
      refine ⟨(front.length + seps.length) :: found, seps ++ word, ?_, rfl, ?_⟩
      · rw [memory]
        exact argvLoop_word next (by omega) looped
      · rw [← memory, words_nil] at rest
        rw [wordsAt_cons, rest, single, List.append_assoc seps,
          word_at (fun byte mem => clean byte (List.mem_append_right _ mem))]
    | before seps word sep later separate nonempty plain separates =>
      have several : words isDelimiter (seps ++ (word ++ sep :: later)) =
          word :: words isDelimiter later := by
        rw [words_skip separate, words_append_cons _ separates, words_single nonempty plain,
          List.singleton_append]
      rw [several, List.length_cons] at room
      simp only [List.length_append, List.length_cons] at enough
      have next := next_before separate nonempty plain front tail separates clean
      have memory : ∀ behind : Bytes, front ++ (seps ++ (word ++ 0 :: behind) ++ 0 :: tail) =
          front ++ seps ++ word ++ [0] ++ (behind ++ 0 :: tail) := by
        intro behind
        simp only [List.append_assoc, List.cons_append, List.nil_append]
      have place : front.length + seps.length + word.length + 1 = (front ++ seps ++ word ++ [0]).length := by
        simp only [List.length_append, List.length_singleton]
      have written : front ++ seps ++ word ++ 0 :: (later ++ 0 :: tail) =
          front ++ seps ++ word ++ [0] ++ (later ++ 0 :: tail) := by
        rw [List.append_assoc _ [0], List.singleton_append]
      -- The next call begins behind the NUL that has been written.
      rw [written, place] at next
      obtain ⟨found, left, looped, size, rest⟩ := ih (argv ++ [front.length + seps.length])
        (front ++ seps ++ word ++ [0]) later (fun byte mem => clean byte (by simp [mem]))
        (by omega) (by rw [List.length_append, List.length_singleton]; omega)
      refine ⟨(front.length + seps.length) :: found, seps ++ (word ++ 0 :: left), ?_, ?_, ?_⟩
      · rw [memory]
        exact argvLoop_word next (by omega) looped
      · simp only [List.length_append, List.length_cons, size]
      · rw [← memory] at rest
        rw [wordsAt_cons, rest, several]
        simp only [List.append_assoc, List.cons_append]
        rw [word_at fun byte mem => clean byte (by simp [mem])]

/-- What `string_to_argv` does to a buffer in memory: every pointer leads to its word, and no more
of them are written than half the text is long. -/
theorem argv_points (capacity : Nat) (buf : Bytes) (terminated : 0 ∈ buf)
    (short : (cString buf).length + 1 ≤ 2 * capacity) :
    ∃ argv memory, stringToArgvIn capacity buf = some (argv, memory) ∧
      memory.length = buf.length ∧ wordsAt argv memory = stringToArgv buf := by
  -- The text ends where the first NUL stands.
  obtain ⟨text, tail, rfl, absent⟩ := List.eq_append_cons_of_mem terminated
  have clean : ∀ byte ∈ text, byte ≠ 0 := fun byte mem zero => absent (zero ▸ mem)
  have read : cString (text ++ 0 :: tail) = text := cString_append_nul text tail clean
  have few : 2 * (words isDelimiter text).length ≤ text.length + 1 := words_length_le text
  rw [read] at short
  obtain ⟨argv, left, looped, same, found⟩ := argvLoop_spec capacity ((text ++ 0 :: tail).length + 1) [] []
    text tail clean (by rw [List.length_append]; omega) (by rw [List.length_nil]; omega)
  rw [← read] at found
  refine ⟨argv, left ++ 0 :: tail, looped, ?_, found⟩
  rw [List.length_append, List.length_append, same]

/-! ## Lines -/

theorem lineIn_length (room : Nat) (stdin : Bytes) : (lineIn room stdin).length ≤ room := by
  fun_induction lineIn room stdin with
  | case1 => exact Nat.zero_le _
  | case2 => exact Nat.zero_le _
  | case3 => simp
  | case4 room byte rest other ih =>
    rw [List.length_cons]
    omega

/-- A line that fits is read as far as its newline. -/
theorem lineIn_line {room : Nat} {text : Bytes} (inner : newline ∉ text) (fits : text.length < room)
    (rest : Bytes) : lineIn room (text ++ newline :: rest) = text ++ [newline] := by
  induction text generalizing room with
  | nil =>
    cases room with
    | zero => omega
    | succ room => rfl
  | cons byte text ih =>
    cases room with
    | zero => omega
    | succ room =>
      rw [List.mem_cons, not_or] at inner
      rw [List.length_cons] at fits
      have other : byte ≠ newline := fun same => inner.1 same.symm
      rw [List.cons_append, lineIn, if_neg other, ih inner.2 (by omega)]
      rfl

/-- A line of words ends with the only newline in it. -/
theorem commandLine_newline (words : List Bytes) (plain : ∀ word ∈ words, newline ∉ word) :
    ∃ text, commandLine words = text ++ [newline] ∧ newline ∉ text := by
  fun_induction commandLine words with
  | case1 => exact ⟨[], rfl, List.not_mem_nil⟩
  | case2 word => exact ⟨word, rfl, plain word List.mem_cons_self⟩
  | case3 word words more ih =>
    obtain ⟨text, line, inner⟩ := ih fun word mem => plain word (List.mem_cons_of_mem _ mem)
    refine ⟨word ++ space :: text, ?_, ?_⟩
    · rw [line, List.append_assoc, List.cons_append]
    · rw [List.mem_append, List.mem_cons]
      rintro (here | separator | later)
      · exact plain word List.mem_cons_self here
      · exact absurd separator (by decide)
      · exact inner later

theorem fgets_line {size : Nat} {words : List Bytes} (plain : ∀ word ∈ words, newline ∉ word)
    (fits : (commandLine words).length < size) (rest : Bytes) :
    fgets size (commandLine words ++ rest) = some (commandLine words, rest) := by
  obtain ⟨text, line, inner⟩ := commandLine_newline words plain
  rw [line, List.length_append, List.length_singleton] at fits
  have read : lineIn (size - 1) (commandLine words ++ rest) = commandLine words := by
    rw [line, List.append_assoc]
    exact lineIn_line inner (by omega) rest
  have nonempty : commandLine words ++ rest ≠ [] := by simp [line]
  rw [fgets, if_neg nonempty]
  simp only [read, List.drop_left]

/-- Whatever stands on standard input, the words of what is read fit into `argv`, and its
pointers lead to them. -/
theorem input_points {size : Nat} {stdin line rest : Bytes} (read : fgets size stdin = some (line, rest))
    (bounded : size ≤ 2 * messagesSize) (stale : Bytes) :
    ∃ argv memory, stringToArgvIn messagesSize (line ++ 0 :: stale) = some (argv, memory) ∧
      memory.length = (line ++ 0 :: stale).length ∧ wordsAt argv memory = stringToArgv line := by
  have text : cString (line ++ 0 :: stale) = cString line := cString_terminated line stale
  have same : stringToArgv (line ++ 0 :: stale) = stringToArgv line := by
    rw [stringToArgv, text, stringToArgv]
  have few : line.length ≤ size - 1 := by
    rw [fgets] at read
    split at read
    next ended => cases read
    next more =>
      cases read
      exact lineIn_length _ _
  have part : (cString line).length ≤ line.length := (List.takeWhile_sublist _).length_le
  have room : (cString (line ++ 0 :: stale)).length + 1 ≤ 2 * messagesSize := by
    rw [text]
    simp only [messagesSize] at *
    omega
  rw [← same]
  exact argv_points messagesSize (line ++ 0 :: stale) (by simp) room

theorem input_points_subscribe :
    ∃ argv memory, stringToArgvIn messagesSize (ascii "subscribe a 1\n" ++ 0 :: [0, 0]) = some (argv, memory) ∧
      memory.length = (ascii "subscribe a 1\n" ++ 0 :: [0, 0]).length ∧
      wordsAt argv memory = stringToArgv (ascii "subscribe a 1\n") :=
  input_points (show fgets (messagesSize + 1) (ascii "subscribe a 1\nexit\n") =
    some (ascii "subscribe a 1\n", ascii "exit\n") by decide) (by decide) [0, 0]

/-! ## Sessions -/

/-- Calls of `handle_user_input`, as long as none of them ends the loop: what they did, and
what is left of standard input. -/
def handleInputs (id : Bytes) : Nat → Bytes → Option (List CommandResult × Bytes)
  | 0, stdin => some ([], stdin)
  | calls + 1, stdin =>
    match fgets (messagesSize + 1) stdin with
    | none => handleInputs id calls stdin
    | some (line, stdin) => do
      let result ← handleUserInput line id
      if result.leave then some ([result], stdin)
      else
        let (results, stdin) ← handleInputs id calls stdin
        some (result :: results, stdin)

/-- Only an exit ends the loop. -/
theorem leave_exit {cmd id : Bytes} {argv : List Bytes} {result : CommandResult}
    (done : processUserCommand cmd argv id = some result) (left : result.leave = true) :
    cmd = ascii "exit" := by
  by_contra other
  rw [processUserCommand, if_neg other] at done
  simp only [Option.bind_eq_bind] at done
  by_cases subscribes : cmd = ascii "subscribe"
  · rw [if_pos subscribes] at done
    by_cases few : argv.length < 2
    · rw [if_pos few] at done
      cases done
      cases left
    · rw [if_neg few] at done
      obtain ⟨named, -, done⟩ := Option.bind_eq_some_iff.mp done
      obtain ⟨copied, -, done⟩ := Option.bind_eq_some_iff.mp done
      cases done
      cases left
  · rw [if_neg subscribes] at done
    by_cases unsubscribes : cmd = ascii "unsubscribe"
    · rw [if_pos unsubscribes] at done
      by_cases wrong : argv.length ≠ 2
      · rw [if_pos wrong] at done
        cases done
        cases left
      · rw [if_neg wrong] at done
        obtain ⟨named, -, done⟩ := Option.bind_eq_some_iff.mp done
        obtain ⟨copied, -, done⟩ := Option.bind_eq_some_iff.mp done
        cases done
        cases left
    · rw [if_neg unsubscribes] at done
      cases done
      cases left

/-- An exit sends an EXIT. -/
theorem handleUserInput_exit (id : UserId) :
    ∃ r : TcpRequest, handleUserInput (commandLine [ascii "exit"]) id.text = some ⟨[r.bytes], [], true⟩ ∧
      r.type = .exit := by
  have short := id.short
  have copy : offsetId + id.text.length + 1 ≤ emptyRequest.length := by
    simp only [offsetId, emptyRequest, sizeofTcpRequest, List.length_replicate]
    omega
  have named : (store emptyRequest offsetId (id.text ++ [0])).length = sizeofTcpRequest := by
    apply store_length
    rw [List.length_append, List.length_singleton, ← Nat.add_assoc]
    exact copy
  have fits : offsetType + (leBytes 4 Command.exit.word).length ≤
      (store emptyRequest offsetId (id.text ++ [0])).length := by
    rw [named]
    decide
  refine ⟨⟨_, (store_length _ _ _ fits).trans named⟩, ?_, ?_⟩
  · have words : stringToArgv (commandLine [ascii "exit"]) = [ascii "exit"] := by decide
    rw [handleUserInput, words]
    simp only [processUserCommand]
    rw [if_pos trivial, if_neg (by decide), strcpy, if_pos copy]
    rfl
  · have type := store_read _ _ _ fits
    rw [leBytes_length] at type
    rw [TcpRequest.type, type]
    rfl

/-- A request that is sent is all that its command does, apart from what it prints. -/
theorem handleUserInput_sent {id : UserId} {u : UserCommand} {r : TcpRequest}
    (sent : sentRequest id.text (commandLine u.words) = some r) :
    ∃ printed, handleUserInput (commandLine u.words) id.text = some ⟨[r.bytes], printed, false⟩ := by
  obtain ⟨cmd, args, first, other⟩ : ∃ cmd args, u.words = cmd :: args ∧ cmd ≠ ascii "exit" := by
    cases u with
    | subscribe topic sf => exact ⟨_, _, rfl, by decide⟩
    | unsubscribe topic => exact ⟨_, _, rfl, by decide⟩
  have command : handleUserInput (commandLine u.words) id.text =
      processUserCommand cmd (cmd :: args) id.text := by
    rw [handleUserInput, stringToArgv_words, first]
  rw [sentRequest] at sent
  rw [command] at sent ⊢
  revert sent
  cases done : processUserCommand cmd (cmd :: args) id.text with
  | none => simp
  | some result =>
    have stays : result.leave = false := by
      by_contra left
      exact other (leave_exit done (by simpa using left))
    obtain ⟨packets, printed, leave⟩ := result
    obtain rfl : leave = false := stays
    cases packets with
    | nil => simp
    | cons bytes others =>
      cases others with
      | cons => simp
      | nil =>
        intro sent
        by_cases size : bytes.length = sizeofTcpRequest
        · simp only [dif_pos size] at sent
          cases sent
          exact ⟨printed, rfl⟩
        · simp only [dif_neg size] at sent
          cases sent

theorem newline_words (u : UserCommand) : ∀ word ∈ u.words, newline ∉ word := by
  have inner : ∀ token : Token, newline ∉ token.text := by
    intro token here
    exact absurd (token.plain newline here).2 (by decide)
  intro word mem
  cases u with
  | subscribe topic sf =>
    simp only [UserCommand.words, List.mem_cons, Option.mem_toList, Option.map_eq_some_iff] at mem
    rcases mem with rfl | rfl | ⟨token, -, rfl⟩
    · decide
    · exact inner topic.toToken
    · exact inner token
  | unsubscribe topic =>
    simp only [UserCommand.words, List.mem_cons, List.not_mem_nil, or_false] at mem
    rcases mem with rfl | rfl
    · decide
    · exact inner topic.toToken

/-- The server reads this request as the command that the user typed. -/
def ReadAs (id : UserId) (u : UserCommand) (r : TcpRequest) : Prop :=
  r.type = u.command ∧ r.clientId = id.text ∧ r.topic = u.topic.text.take 50 ∧
    (u.command = .subscribe → r.sf = u.flag)

/-- What the user types up to an exit is what the server reads, in order, and nothing of what
is typed behind it. -/
theorem session_sends {id : UserId} {us : List UserCommand} (trips : ∀ u ∈ us, RoundTrip id u)
    (fit : ∀ u ∈ us, (commandLine u.words).length ≤ messagesSize) {calls : Nat} (enough : us.length < calls)
    (rest : Bytes) :
    ∃ results requests exit,
      handleInputs id.text calls
          (us.flatMap (fun u => commandLine u.words) ++ (commandLine [ascii "exit"] ++ rest)) =
        some (results, rest) ∧
      results.flatMap CommandResult.sent = (requests ++ [exit]).map TcpRequest.bytes ∧
      List.Forall₂ (ReadAs id) us requests ∧ exit.type = .exit := by
  induction us generalizing calls with
  | nil =>
    obtain ⟨calls, rfl⟩ := Nat.exists_eq_add_of_lt enough
    obtain ⟨exit, left, type⟩ := handleUserInput_exit id
    have read : fgets (messagesSize + 1) (commandLine [ascii "exit"] ++ rest) =
        some (commandLine [ascii "exit"], rest) := fgets_line (by decide) (by decide) rest
    refine ⟨[⟨[exit.bytes], [], true⟩], [], exit, ?_, rfl, .nil, type⟩
    rw [List.flatMap_nil, List.nil_append, handleInputs, read]
    simp only [left, Option.bind_eq_bind, Option.bind_some, if_true]
  | cons u us ih =>
    rw [List.forall_mem_cons] at trips fit
    obtain ⟨calls, rfl⟩ : ∃ before, calls = before + 1 := ⟨calls - 1, by omega⟩
    rw [List.length_cons] at enough
    obtain ⟨results, requests, exit, later, sent, read, type⟩ := ih trips.2 fit.2 (show us.length < calls by omega)
    obtain ⟨r, here, carries⟩ := trips.1
    obtain ⟨printed, done⟩ := handleUserInput_sent here
    refine ⟨⟨[r.bytes], printed, false⟩ :: results, r :: requests, exit, ?_, ?_, .cons carries read, type⟩
    · have line : fgets (messagesSize + 1) (commandLine u.words ++
            (us.flatMap (fun u => commandLine u.words) ++ (commandLine [ascii "exit"] ++ rest))) =
          some (commandLine u.words,
            us.flatMap (fun u => commandLine u.words) ++ (commandLine [ascii "exit"] ++ rest)) :=
        fgets_line (newline_words u) (by omega) _
      rw [List.flatMap_cons, List.append_assoc, handleInputs, line]
      simp only [done, later, Option.bind_eq_bind, Option.bind_some]
      rfl
    · rw [List.flatMap_cons, sent]
      rfl

/-- One client and the commands it types. -/
def reader : UserId := ⟨ascii "C1", by decide, by decide⟩

def evening : TopicToken where
  text := ascii "evening/news"
  nonempty := by decide
  plain := by decide
  inside := by decide

def readerCommands : List UserCommand := [.subscribe evening none, .unsubscribe evening]

theorem session_sends_reader :
    ∃ results requests exit,
      handleInputs reader.text 3 (readerCommands.flatMap (fun u => commandLine u.words) ++
          (commandLine [ascii "exit"] ++ ascii "subscribe late\n")) =
        some (results, ascii "subscribe late\n") ∧
      results.flatMap CommandResult.sent = (requests ++ [exit]).map TcpRequest.bytes ∧
      List.Forall₂ (ReadAs reader) readerCommands requests ∧ exit.type = .exit :=
  session_sends (by decide) (by decide) (by decide) _

end PubSub.Properties
