import Mathlib.Data.List.Basic
import Mathlib.Data.List.TakeWhile
import Mathlib.Tactic.Ring

/-!
# Byte strings

Little-endian words, C strings and records laid out in memory, all as lists of bytes.
-/
namespace PubSub.General

abbrev Bytes := List UInt8

/-- The bytes of a text are checked one by one, never all bytes there are. -/
instance decidableForallBytes {p : UInt8 → Prop} [DecidablePred p] (bytes : Bytes) :
    Decidable (∀ byte ∈ bytes, p byte) :=
  List.decidableBAll p bytes

/-- The bytes of an ASCII text. -/
def ascii (text : String) : Bytes := text.toList.map fun ch => UInt8.ofNat ch.toNat

theorem drop_of_getElem? {α : Type} {xs : List α} {i : Nat} {x : α} (here : xs[i]? = some x) :
    xs.drop i = x :: xs.drop (i + 1) := by
  rw [List.drop_eq_getElem?_toList_append, here]
  rfl

/-! ## Little-endian words -/

/-- The number a little-endian byte string stands for. Missing high bytes count as zero. -/
def leValue : Bytes → Nat
  | [] => 0
  | byte :: rest => byte.toNat + 256 * leValue rest

/-- The low `width` bytes of a number, least significant first. -/
def leBytes : Nat → Nat → Bytes
  | 0, _ => []
  | width + 1, value => UInt8.ofNat value :: leBytes width (value / 256)

@[simp] theorem leBytes_length (width value : Nat) : (leBytes width value).length = width := by
  induction width generalizing value with
  | zero => rfl
  | succ width ih => simp [leBytes, ih]

theorem leValue_leBytes (width value : Nat) (small : value < 256 ^ width) :
    leValue (leBytes width value) = value := by
  induction width generalizing value with
  | zero => simp only [pow_zero, Nat.lt_one_iff] at small; subst small; rfl
  | succ width ih =>
    -- The lowest byte is split off; what is left fits into one byte less.
    have high : value / 256 < 256 ^ width := by
      rw [pow_succ] at small
      exact Nat.div_lt_of_lt_mul (by omega)
    simp only [leBytes, leValue, ih _ high, UInt8.toNat_ofNat']
    omega

theorem leValue_append_zeros (bytes : Bytes) (k : Nat) :
    leValue (bytes ++ List.replicate k 0) = leValue bytes := by
  induction bytes with
  | nil =>
    induction k with
    | zero => rfl
    | succ k ih =>
      rw [List.nil_append] at ih ⊢
      simp [List.replicate_succ, leValue, ih]
  | cons byte rest ih => rw [List.cons_append, leValue, leValue, ih]

/-- The low bytes are what is left of the value modulo their range. -/
theorem leValue_take (k : Nat) (bytes : Bytes) :
    leValue (bytes.take k) = leValue bytes % 256 ^ k := by
  induction k generalizing bytes with
  | zero => simp [leValue, Nat.mod_one]
  | succ k ih =>
    cases bytes with
    | nil => simp [leValue]
    | cons byte rest =>
      have bound := byte.toNat_lt
      have low : (byte.toNat + 256 * leValue rest) % 256 = byte.toNat := by omega
      have high : (byte.toNat + 256 * leValue rest) / 256 = leValue rest := by omega
      rw [List.take_succ_cons, leValue, leValue, ih, pow_succ', Nat.mod_mul, low, high]

/-- A 32-bit word read as a two's complement `int`. -/
def toInt32 (word : Nat) : Int :=
  if word % 2 ^ 32 < 2 ^ 31 then (word % 2 ^ 32 : Nat) else (word % 2 ^ 32 : Nat) - 2 ^ 32

/-- The four bytes of an `int`. -/
def int32Bytes (value : Int) : Bytes := leBytes 4 (value % 2 ^ 32).toNat

@[simp] theorem int32Bytes_length (value : Int) : (int32Bytes value).length = 4 := leBytes_length _ _

theorem toInt32_small (word : Nat) (small : word < 2 ^ 31) : toInt32 word = word := by
  unfold toInt32
  rw [Nat.mod_eq_of_lt (by omega), if_pos small]

theorem leValue_int32Bytes (value : Nat) (small : value < 2 ^ 31) :
    leValue (int32Bytes value) = value := by
  have fits : ((value : Int) % 2 ^ 32).toNat = value := by omega
  rw [int32Bytes, fits]
  exact leValue_leBytes 4 value (by omega)

/-! ## C strings -/

/-- What `std::string(char *)` reads: the bytes in front of the first NUL. -/
def cString (memory : Bytes) : Bytes := memory.takeWhile (· ≠ 0)

theorem cString_append_nul (text rest : Bytes) (clean : ∀ byte ∈ text, byte ≠ 0) :
    cString (text ++ 0 :: rest) = text := by
  simp only [cString]
  rw [List.takeWhile_append_of_pos (by simpa using clean)]
  simp

/-- A NUL behind a text changes nothing. -/
theorem cString_concat_nul (memory : Bytes) : cString (memory ++ [0]) = cString memory := by
  simp only [cString]
  induction memory with
  | nil => rfl
  | cons byte rest ih => rw [List.cons_append, List.takeWhile_cons, List.takeWhile_cons, ih]

/-- What lies behind the first NUL is not read, whether there is one in front or not. -/
theorem cString_terminated (front rest : Bytes) : cString (front ++ 0 :: rest) = cString front := by
  simp only [cString]
  induction front with
  | nil => rfl
  | cons byte front ih => rw [List.cons_append, List.takeWhile_cons, List.takeWhile_cons, ih]

/-- A C string is determined by its bytes and the place of its terminator. -/
theorem cString_eq (memory text : Bytes) (clean : ∀ byte ∈ text, byte ≠ 0)
    (agrees : ∀ i < text.length, memory[i]? = text[i]?)
    (terminated : memory[text.length]? = some 0) : cString memory = text := by
  have front : memory.take text.length = text := by
    apply List.ext_getElem?
    intro i
    rw [List.getElem?_take]
    split
    next inside => exact agrees i inside
    next outside => exact (List.getElem?_eq_none (by omega)).symm
  -- The text reaches up to its terminator, and nothing behind that is read.
  rw [← List.take_append_drop text.length memory, front, drop_of_getElem? terminated]
  exact cString_append_nul _ _ clean

/-! ## Records in memory -/

/-- Overwrite the bytes of `memory` from `offset` on. -/
def store (memory : Bytes) (offset : Nat) (data : Bytes) : Bytes :=
  memory.take offset ++ data ++ memory.drop (offset + data.length)

theorem store_length (memory : Bytes) (offset : Nat) (data : Bytes)
    (fits : offset + data.length ≤ memory.length) :
    (store memory offset data).length = memory.length := by
  simp only [store, List.length_append, List.length_take, List.length_drop]
  omega

section

variable (memory : Bytes) (offset : Nat) (data : Bytes) (fits : offset + data.length ≤ memory.length)
include fits

theorem store_inside (i : Nat) (here : i < data.length) :
    (store memory offset data)[offset + i]? = data[i]? := by
  have front : (memory.take offset).length = offset := by
    rw [List.length_take]; omega
  rw [store, List.append_assoc, List.getElem?_append_right (by omega), front,
    Nat.add_sub_cancel_left, List.getElem?_append_left here]

theorem store_outside (i : Nat) (elsewhere : i < offset ∨ offset + data.length ≤ i) :
    (store memory offset data)[i]? = memory[i]? := by
  have front : (memory.take offset).length = offset := by
    rw [List.length_take]; omega
  rw [store, List.append_assoc]
  -- In front of the data nothing moves; behind it the lengths cancel.
  rcases elsewhere with before | behind
  · rw [List.getElem?_append_left (by omega), List.getElem?_take_of_lt before]
  · rw [List.getElem?_append_right (by omega), front, List.getElem?_append_right (by omega),
      List.getElem?_drop]
    congr 1
    omega

theorem store_take (k : Nat) (before : k ≤ offset) : (store memory offset data).take k = memory.take k := by
  apply List.ext_getElem?
  intro i
  rw [List.getElem?_take, List.getElem?_take]
  split
  · exact store_outside memory offset data fits i (.inl (by omega))
  · rfl

theorem store_drop (k : Nat) (behind : offset + data.length ≤ k) :
    (store memory offset data).drop k = memory.drop k := by
  apply List.ext_getElem?
  intro i
  rw [List.getElem?_drop, List.getElem?_drop]
  exact store_outside memory offset data fits (k + i) (.inr (by omega))

/-- What has been written is read again. -/
theorem store_read : ((store memory offset data).drop offset).take data.length = data := by
  apply List.ext_getElem?
  intro i
  rw [List.getElem?_take, List.getElem?_drop]
  split
  next here => exact store_inside memory offset data fits i here
  next outside => exact (List.getElem?_eq_none (by omega)).symm

end

end PubSub.General
