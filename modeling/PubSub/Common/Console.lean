import PubSub.Common.Parse

/-!
# Standard input and the command line

How the words of a command get from standard input into `argv`: `fgets`, and the loop in
`common.cpp` that cuts a buffer up in place. How words become numbers, and what the two
`main` functions accept on the command line.
-/
namespace PubSub

open General

/-! ## Lines -/

/-- What `fgets` puts into a buffer with room for so many bytes in front of the NUL. -/
def lineIn : Nat → Bytes → Bytes
  | 0, _ => []
  | _, [] => []
  | room + 1, byte :: rest => if byte = newline then [byte] else byte :: lineIn room rest

/-- `fgets`: the line and what is left of the stream. None is a null pointer, at the end of
the stream. -/
def fgets (size : Nat) (stdin : Bytes) : Option (Bytes × Bytes) :=
  if stdin = [] then none
  else
    let line := lineIn (size - 1) stdin
    some (line, stdin.drop line.length)

/-! ## `string_to_argv` -/

/-- The buffer, and the place that `strtok` keeps from one call to the next. -/
structure Strtok where
  memory : Bytes
  saved : Nat

/-- `strtok`: where the next word begins, with a NUL behind it. None is a null pointer. -/
def Strtok.next (s : Strtok) : Option Nat × Strtok :=
  let text := cString (s.memory.drop s.saved)
  let start := s.saved + (text.takeWhile isDelimiter).length
  let text := text.dropWhile isDelimiter
  let stop := start + (text.takeWhile (!isDelimiter ·)).length
  if text = [] then (none, { s with saved := start })
  else if text.dropWhile (!isDelimiter ·) = [] then (some start, { s with saved := stop })
  else (some start, ⟨s.memory.set stop 0, stop + 1⟩)

/-- The `while` loop. None has written behind the end of `argv`, or is out of steps. -/
def argvLoop (capacity : Nat) : Nat → Strtok → List Nat → Option (List Nat × Bytes)
  | 0, _, _ => none
  | fuel + 1, s, argv =>
    match s.next with
    | (none, s) => some (argv, s.memory)
    | (some p, s) => if argv.length < capacity then argvLoop capacity fuel s (argv ++ [p]) else none

/-- `string_to_argv` on a buffer in memory: the pointers, and the buffer they point into. -/
def stringToArgvIn (capacity : Nat) (buf : Bytes) : Option (List Nat × Bytes) :=
  argvLoop capacity (buf.length + 1) ⟨buf, 0⟩ []

/-! ## Numbers -/

def isSpaceByte (byte : UInt8) : Bool := byte = 32 || (9 ≤ byte && byte ≤ 13)

def isDigit (byte : UInt8) : Bool := 48 ≤ byte && byte ≤ 57

/-- The number the digits at the front of the text stand for. -/
def digitsValue (text : Bytes) : Nat :=
  (text.takeWhile isDigit).foldl (fun value digit => 10 * value + (digit.toNat - 48)) 0

/-- The number at the front of a word, 0 when there is none. -/
def numeral (word : Bytes) : Int :=
  match word.dropWhile isSpaceByte with
  | 45 :: text => -(digitsValue text : Int)
  | 43 :: text => digitsValue text
  | text => digitsValue text

/-- `strtol` clamps to the range of `long`. -/
def clampToLong (value : Int) : Int := max (-2 ^ 63) (min (2 ^ 63 - 1) value)

/-- `atoi` is `(int) strtol(word, NULL, 10)`. -/
def atoi (word : Bytes) : Int := toInt32 (clampToLong (numeral word) % 2 ^ 32).toNat

/-- A number may have a sign in front. -/
def behindSign : Bytes → Bytes
  | 45 :: digits => digits
  | 43 :: digits => digits
  | digits => digits

/-- `strtol(text, &end, 10)`: the number and the text that `end` points to. Where there are no
digits this is all of the text, blanks and sign included. -/
def strtol (text : Bytes) : Int × Bytes :=
  let digits := behindSign (text.dropWhile isSpaceByte)
  if digits.takeWhile isDigit = [] then (0, text)
  else (clampToLong (numeral text), digits.dropWhile isDigit)

/-! ## Arguments of the two programs -/

/-- The check of a port, the same in both programs but for the least port. -/
def portArgument (least : Int) (text : Bytes) : Option Nat :=
  let (port, rest) := strtol text
  if rest ≠ [] ∨ port < least ∨ port > 65535 then none else some port.toNat

/-- `main` in `server.cpp`: the port of its two sockets. None is `EXIT_FAILURE`. -/
def serverMain (argv : List Bytes) : Option Nat :=
  if argv.length ≠ 2 then none else portArgument 1024 (argv.getD 1 [])

/-- `main` in `subscriber.cpp`: id, address and port. None is `EXIT_FAILURE`. -/
def subscriberMain (argv : List Bytes) : Option (Bytes × Bytes × Nat) :=
  if argv.length ≠ 4 then none
  else do
    let port ← portArgument 1 (argv.getD 3 [])
    some (argv.getD 1 [], argv.getD 2 [], port)

end PubSub
