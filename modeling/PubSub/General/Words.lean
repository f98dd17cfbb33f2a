import Mathlib.Data.List.TakeWhile

/-!
# Words

The runs between the separators of a list, and how a list is gone through word by word.
-/
namespace PubSub.General

variable {α : Type}

/-- A run ends where something else begins. -/
theorem run_append {p : α → Bool} {xs ys : List α} (run : ∀ x ∈ xs, p x = true)
    (other : ∀ y ∈ ys.head?, p y = false) :
    (xs ++ ys).takeWhile p = xs ∧ (xs ++ ys).dropWhile p = ys := by
  rw [List.takeWhile_append_of_pos run, List.dropWhile_append_of_pos run]
  cases ys with
  | nil => exact ⟨List.append_nil _, rfl⟩
  | cons y ys =>
    have stop := other y rfl
    rw [List.takeWhile_cons, List.dropWhile_cons, stop]
    exact ⟨List.append_nil _, rfl⟩

variable (isSep : α → Bool)

/-- The runs between separators that are not empty. -/
def words (xs : List α) : List (List α) := (xs.splitOnP isSep).filter (· ≠ [])

variable {isSep}

theorem words_append_cons (xs : List α) {sep : α} (separates : isSep sep = true) (ys : List α) :
    words isSep (xs ++ sep :: ys) = words isSep xs ++ words isSep ys := by
  rw [words, List.splitOnP_append_cons _ _ separates, List.filter_append, words, words]

@[simp] theorem words_nil : words isSep [] = [] := rfl

theorem words_single {xs : List α} (nonempty : xs ≠ []) (plain : ∀ x ∈ xs, isSep x = false) :
    words isSep xs = [xs] := by
  rw [words, List.splitOnP_eq_singleton plain, List.filter_cons_of_pos (by simpa using nonempty),
    List.filter_nil]

/-- Separators in front are skipped. -/
theorem words_skip {seps : List α} (separate : ∀ x ∈ seps, isSep x = true) (xs : List α) :
    words isSep (seps ++ xs) = words isSep xs := by
  induction seps with
  | nil => rfl
  | cons sep seps ih =>
    rw [List.forall_mem_cons] at separate
    have split := words_append_cons [] separate.1 (seps ++ xs)
    rw [List.cons_append]
    exact split.trans (ih separate.2)

/-- How far a list is read for its first word: there is none, or the list ends with it, or a
separator stands behind it. -/
inductive FirstWord (isSep : α → Bool) : List α → Prop
  | none (seps : List α) (separate : ∀ x ∈ seps, isSep x = true) : FirstWord isSep seps
  | last (seps word : List α) (separate : ∀ x ∈ seps, isSep x = true) (nonempty : word ≠ [])
      (plain : ∀ x ∈ word, isSep x = false) : FirstWord isSep (seps ++ word)
  | before (seps word : List α) (sep : α) (later : List α) (separate : ∀ x ∈ seps, isSep x = true)
      (nonempty : word ≠ []) (plain : ∀ x ∈ word, isSep x = false) (separates : isSep sep = true) :
      FirstWord isSep (seps ++ (word ++ sep :: later))

theorem firstWord (xs : List α) : FirstWord isSep xs := by
  have front : ∀ x ∈ xs.takeWhile isSep, isSep x = true := fun x => List.mem_takeWhile_imp
  rw [← List.takeWhile_append_dropWhile (p := isSep) (l := xs)]
  generalize xs.takeWhile isSep = seps at front ⊢
  cases text : xs.dropWhile isSep with
  | nil =>
    rw [List.append_nil]
    exact .none seps front
  | cons x rest =>
    have first : isSep x = false := by
      have head := List.head?_dropWhile_not isSep xs
      rw [text] at head
      simpa using head
    have plain : ∀ y ∈ x :: rest.takeWhile (!isSep ·), isSep y = false := by
      intro y mem
      rcases List.mem_cons.mp mem with rfl | mem
      · exact first
      · simpa using List.mem_takeWhile_imp mem
    rw [← List.takeWhile_append_dropWhile (p := (!isSep ·)) (l := rest), ← List.cons_append]
    cases behind : rest.dropWhile (!isSep ·) with
    | nil =>
      rw [List.append_nil]
      exact .last seps _ front (by simp) plain
    | cons sep later =>
      have separates : isSep sep = true := by
        have head := List.head?_dropWhile_not (!isSep ·) rest
        rw [behind] at head
        simpa using head
      exact .before seps _ sep later front (by simp) plain separates

/-- There is a separator between two words. -/
theorem words_length_le (xs : List α) : 2 * (words isSep xs).length ≤ xs.length + 1 := by
  generalize size : xs.length = n
  induction n using Nat.strong_induction_on generalizing xs with
  | _ n ih =>
    have shape : FirstWord isSep xs := firstWord xs
    cases shape with
    | none seps separate =>
      have nothing := words_skip separate []
      rw [List.append_nil] at nothing
      rw [nothing]
      simp
    | last seps word separate nonempty plain =>
      have some_letter := List.length_pos_iff.mpr nonempty
      rw [words_skip separate, words_single nonempty plain]
      simp only [List.length_append, List.length_singleton] at size ⊢
      omega
    | before seps word sep later separate nonempty plain separates =>
      have some_letter := List.length_pos_iff.mpr nonempty
      simp only [List.length_append, List.length_cons] at size
      have fewer := ih later.length (by omega) later rfl
      rw [words_skip separate, words_append_cons _ separates, words_single nonempty plain]
      simp only [List.length_append, List.length_singleton]
      omega

end PubSub.General
