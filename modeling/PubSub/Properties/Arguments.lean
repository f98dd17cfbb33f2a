import PubSub.Common.Console
import PubSub.General.Words

/-!
# Ports on the command line

What `strtol` takes for a number, behind its bounds: blanks, a plus and digits, and nothing
else.
-/
namespace PubSub.Properties

open General

/-- A text for a number that is not negative. -/
structure Spells (blanks sign digits : Bytes) : Prop where
  blank : ∀ byte ∈ blanks, isSpaceByte byte = true
  plus : sign = [] ∨ sign = [43]
  nonempty : digits ≠ []
  digit : ∀ byte ∈ digits, isDigit byte = true

private theorem digit_bounds {byte : UInt8} (digit : isDigit byte = true) :
    isSpaceByte byte = false ∧ byte ≠ 45 ∧ byte ≠ 43 := by
  simp only [isDigit, Bool.and_eq_true, decide_eq_true_eq, UInt8.le_iff_toNat_le] at digit
  have low : 48 ≤ byte.toNat := digit.1
  refine ⟨?_, ?_, ?_⟩
  · rw [← Bool.not_eq_true]
    intro space
    simp only [isSpaceByte, Bool.or_eq_true, Bool.and_eq_true, decide_eq_true_eq,
      UInt8.le_iff_toNat_le] at space
    rcases space with rfl | ⟨-, high⟩
    · exact absurd low (by decide)
    · have high : byte.toNat ≤ 13 := high
      omega
  · rintro rfl
    exact absurd low (by decide)
  · rintro rfl
    exact absurd low (by decide)

section

variable {blanks sign digits : Bytes} (spells : Spells blanks sign digits)
include spells

theorem Spells.behind_blanks : (blanks ++ (sign ++ digits)).dropWhile isSpaceByte = sign ++ digits := by
  obtain ⟨first, others, shape⟩ := List.exists_cons_of_ne_nil spells.nonempty
  have letter := digit_bounds (spells.digit first (by rw [shape]; exact List.mem_cons_self))
  apply (run_append spells.blank _).2
  rcases spells.plus with rfl | rfl
  · rw [shape]
    rintro byte ⟨⟩
    exact letter.1
  · rintro byte ⟨⟩
    rfl

theorem Spells.behind_sign : behindSign (sign ++ digits) = digits := by
  obtain ⟨first, others, shape⟩ := List.exists_cons_of_ne_nil spells.nonempty
  have letter := digit_bounds (spells.digit first (by rw [shape]; exact List.mem_cons_self))
  rcases spells.plus with rfl | rfl
  · rw [shape, List.nil_append, behindSign]
    · rintro _ ⟨⟩
      exact letter.2.1 rfl
    · rintro _ ⟨⟩
      exact letter.2.2 rfl
  · rfl

theorem Spells.numeral_eq : numeral (blanks ++ (sign ++ digits)) = digitsValue digits := by
  obtain ⟨first, others, shape⟩ := List.exists_cons_of_ne_nil spells.nonempty
  have letter := digit_bounds (spells.digit first (by rw [shape]; exact List.mem_cons_self))
  rw [numeral, spells.behind_blanks]
  rcases spells.plus with rfl | rfl
  · rw [shape, List.nil_append]
    split
    next minus =>
      cases minus
      exact absurd rfl letter.2.1
    next plus =>
      cases plus
      exact absurd rfl letter.2.2
    next => rfl
  · rfl

theorem Spells.strtol_eq : strtol (blanks ++ (sign ++ digits)) = (clampToLong (digitsValue digits), []) := by
  have all : digits.takeWhile isDigit = digits := List.takeWhile_eq_self_iff.mpr spells.digit
  have nothing : digits.dropWhile isDigit = [] := List.dropWhile_eq_nil_iff.mpr spells.digit
  simp only [strtol, spells.behind_blanks, spells.behind_sign, all, nothing, spells.numeral_eq,
    if_neg spells.nonempty]

end

/-- Where `strtol` reads all of a text and finds a positive number, the number is spelled out. -/
theorem spells_of_strtol {text : Bytes} (whole : (strtol text).2 = []) (positive : 0 < (strtol text).1) :
    ∃ blanks sign digits, text = blanks ++ (sign ++ digits) ∧ Spells blanks sign digits := by
  rw [strtol] at whole positive
  by_cases empty : (behindSign (text.dropWhile isSpaceByte)).takeWhile isDigit = []
  · simp only [if_pos empty] at positive
    exact absurd positive (lt_irrefl 0)
  · simp only [if_neg empty] at whole positive
    have digit := List.dropWhile_eq_nil_iff.mp whole
    have blank : ∀ byte ∈ text.takeWhile isSpaceByte, isSpaceByte byte = true :=
      fun byte mem => List.mem_takeWhile_imp mem
    have split : text.takeWhile isSpaceByte ++ text.dropWhile isSpaceByte = text :=
      List.takeWhile_append_dropWhile
    have nonempty : behindSign (text.dropWhile isSpaceByte) ≠ [] := by
      intro nothing
      rw [nothing] at empty
      exact empty rfl
    refine ⟨text.takeWhile isSpaceByte, ?_⟩
    rw [numeral] at positive
    generalize text.dropWhile isSpaceByte = signed at *
    split at positive
    next minus =>
      -- A number with a minus in front is not positive.
      simp only [clampToLong] at positive
      omega
    next digits =>
      exact ⟨[43], digits, split.symm, blank, .inr rfl, nonempty, digit⟩
    next noMinus noPlus =>
      have plain : behindSign signed = signed := by
        rw [behindSign]
        · exact noMinus
        · exact noPlus
      rw [plain] at nonempty digit
      exact ⟨[], signed, split.symm, blank, .inl rfl, nonempty, digit⟩

/-- `strtol` clamps nothing that can be a port. -/
private theorem clamp_port {value port : Nat} (small : port ≤ 65535) :
    clampToLong value = port ↔ value = port := by
  simp only [clampToLong]
  omega

/-- Exactly the spelled numbers within the bounds are accepted as ports. -/
theorem port_accepted_iff {least : Int} (positive : 0 < least) (text : Bytes) (port : Nat) :
    portArgument least text = some port ↔
      ∃ blanks sign digits, text = blanks ++ (sign ++ digits) ∧ Spells blanks sign digits ∧
        digitsValue digits = port ∧ least ≤ port ∧ port ≤ 65535 := by
  constructor
  · intro accepted
    simp only [portArgument] at accepted
    by_cases refused : (strtol text).2 ≠ [] ∨ (strtol text).1 < least ∨ (strtol text).1 > 65535
    · rw [if_pos refused] at accepted
      cases accepted
    · rw [if_neg refused, Option.some.injEq] at accepted
      simp only [not_or, not_not, not_lt] at refused
      obtain ⟨whole, low, high⟩ := refused
      obtain ⟨blanks, sign, digits, shape, spells⟩ := spells_of_strtol whole (by omega)
      have number : (strtol text).1 = clampToLong (digitsValue digits) := by
        rw [shape, spells.strtol_eq]
      have natural : clampToLong (digitsValue digits) = port := by omega
      exact ⟨blanks, sign, digits, shape, spells, (clamp_port (by omega)).mp natural, by omega, by omega⟩
  · rintro ⟨blanks, sign, digits, rfl, spells, value, low, high⟩
    have natural := (clamp_port high).mpr value
    simp only [portArgument, spells.strtol_eq, natural]
    rw [if_neg (by simp; omega), Int.toNat_natCast]

/-- Blanks, a plus and a zero in front are all accepted. -/
theorem port_accepted_padded :
    portArgument 1024 (ascii " +012345") = some 12345 ↔
      ∃ blanks sign digits, ascii " +012345" = blanks ++ (sign ++ digits) ∧ Spells blanks sign digits ∧
        digitsValue digits = 12345 ∧ (1024 : Int) ≤ (12345 : Nat) ∧ 12345 ≤ 65535 :=
  port_accepted_iff (by decide) (ascii " +012345") 12345

example : portArgument 1024 (ascii " +012345") = some 12345 := by decide

theorem portArgument_mono {least least' : Int} {text : Bytes} {port : Nat} (lower : least' ≤ least)
    (accepted : portArgument least text = some port) : portArgument least' text = some port := by
  simp only [portArgument] at accepted ⊢
  by_cases refused : (strtol text).2 ≠ [] ∨ (strtol text).1 < least ∨ (strtol text).1 > 65535
  · rw [if_pos refused] at accepted
    cases accepted
  · rw [if_neg refused] at accepted
    rw [if_neg, accepted]
    rintro (rest | below | above)
    · exact refused (.inl rest)
    · exact refused (.inr (.inl (by omega)))
    · exact refused (.inr (.inr above))

/-- What is a port to the server is the same port to a subscriber. -/
theorem subscriberMain_of_serverMain {server subscriber id address text : Bytes} {port : Nat}
    (started : serverMain [server, text] = some port) :
    subscriberMain [subscriber, id, address, text] = some (id, address, port) := by
  have accepted : portArgument 1 text = some port := portArgument_mono (by decide) started
  simp [subscriberMain, accepted]

end PubSub.Properties
