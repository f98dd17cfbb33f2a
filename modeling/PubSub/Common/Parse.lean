import PubSub.Common.Protocol

/-! The text side of `common.cpp`: command lines and received messages. -/
namespace PubSub

open General

def space : UInt8 := 32
def newline : UInt8 := 10

def isDelimiter (byte : UInt8) : Bool := byte = space || byte = newline

/-- `string_to_argv`: `strtok` with the delimiters blank and newline. -/
def stringToArgv (buf : Bytes) : List Bytes :=
  ((cString buf).splitOnP isDelimiter).filter (· ≠ [])

/-! ## `parse_input` -/

/-- How iostreams write the two floating point formats. -/
structure RealText where
  /-- `ntohs(net_value) / 100.0f`, fixed, two decimals -/
  shortReal : Nat → Bytes
  /-- sign byte, mantissa in host order, exponent byte -/
  float : UInt8 → Nat → UInt8 → Bytes

/-- `memcpy` or indexing of `n` bytes at `pos`; none is an access outside the buffer. -/
def readAt (buff : Bytes) (pos n : Nat) : Option Bytes :=
  if pos + n ≤ buff.length then some ((buff.drop pos).take n) else none

/-- `buff.substr(pos, n)`; none is the exception `std::out_of_range`. -/
def substr (buff : Bytes) (pos n : Nat) : Option Bytes :=
  if pos ≤ buff.length then some ((buff.drop pos).take n) else none

/-- `ntohl` of four bytes in network order. -/
def ntohl (net : Bytes) : Nat := leValue net.reverse

/-- `-value` on `int`: the wrapped result, and whether the negation overflowed. -/
def negateInt32 (value : Int) : Int × Bool :=
  if value = -2 ^ 31 then (value, true) else (-value, false)

/-- `int value = ntohl(net_value); if (sign) value = -value;` -/
def signedValue (sign : UInt8) (net : Bytes) : Int × Bool :=
  let value := toInt32 (ntohl net)
  if sign != 0 then negateInt32 value else (value, false)

def intText (value : Int) : Bytes := ascii (toString value)

/-- The `switch (type)`: what is printed behind the topic. -/
def parsePayload (rt : RealText) (buff : Bytes) (type : UInt8) (pos : Nat) : Option Bytes :=
  if type = dataInt then
    if pos + 1 + 4 > buff.length then some []
    else do
      let sign ← readAt buff pos 1
      let net ← readAt buff (pos + 1) 4
      some (ascii " - INT - " ++ intText (signedValue (sign.headD 0) net).1 ++ ascii "\n")
  else if type = dataShortReal then
    if pos + 2 > buff.length then some []
    else do
      let net ← readAt buff pos 2
      some (ascii " - SHORT_REAL - " ++ rt.shortReal (leValue net.reverse) ++ ascii "\n")
  else if type = dataFloat then
    if pos + 1 + 4 + 1 > buff.length then some []
    else do
      let sign ← readAt buff pos 1
      let net ← readAt buff (pos + 1) 4
      let exponent ← readAt buff (pos + 5) 1
      some (ascii " - FLOAT - " ++ rt.float (sign.headD 0) (ntohl net) (exponent.headD 0) ++
        ascii "\n")
  else if type = dataString then do
    -- `buff.find('\0', pos)` with `npos` replaced by the size: the payload ends there.
    let rest ← substr buff pos (buff.length - pos)
    some (ascii " - STRING - " ++ cString rest ++ ascii "\n")
  else some []

/-- `parse_input`: the text it writes to standard output. None stands for an access
outside the buffer or an exception. -/
def parseInput (rt : RealText) (buff : Bytes) : Option Bytes := do
  let ip ← readAt buff 0 4
  let port ← readAt buff 4 2
  let ipStr ← match ip with
    | [a, b, c, d] => some (inetNtoa ⟨a, b, c, d⟩)
    | _ => none
  let output := ipStr ++ ascii ":" ++ decimal (leValue port.reverse) ++ ascii " - "
  let field ← substr buff 6 50
  let topic := cString field
  -- Too short for a type byte: returns before anything is printed.
  if 56 ≥ buff.length then some []
  else do
    let type ← readAt buff 56 1
    let payload ← parsePayload rt buff (type.headD 0) 57
    some (output ++ topic ++ payload)

theorem readAt_some (buff : Bytes) (pos n : Nat) (inside : pos + n ≤ buff.length) :
    readAt buff pos n = some ((buff.drop pos).take n) := if_pos inside

theorem substr_some (buff : Bytes) (pos n : Nat) (inside : pos ≤ buff.length) :
    substr buff pos n = some ((buff.drop pos).take n) := if_pos inside

end PubSub
