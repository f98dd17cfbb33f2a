import Mathlib.Algebra.BigOperators.Group.List.Basic
import Mathlib.Data.List.Nodup
import Mathlib.Tactic.Linarith

/-!
# Heap cells and reference counts

Addresses are numbers and an address may be handed out again once its cell has
been freed. `Exact` says that a counter kept inside each cell is the number of
references to it, for whatever the references are.
-/
namespace PubSub.General

structure Heap (α : Type) where
  cells : Nat → Option α
  /-- How often each address has been allocated and freed. -/
  news : Nat → Nat
  deletes : Nat → Nat

namespace Heap

variable {α : Type}

def empty : Heap α := ⟨fun _ => none, fun _ => 0, fun _ => 0⟩

/-- Following a pointer; none is a dangling pointer. -/
def read (h : Heap α) (p : Nat) : Option α := h.cells p

def set (h : Heap α) (p : Nat) (value : α) : Heap α :=
  { h with cells := fun q => if q = p then some value else h.cells q }

def alloc (h : Heap α) (p : Nat) (value : α) : Heap α :=
  { h.set p value with news := fun q => if q = p then h.news q + 1 else h.news q }

def free (h : Heap α) (p : Nat) : Heap α :=
  { h with
    cells := fun q => if q = p then none else h.cells q
    deletes := fun q => if q = p then h.deletes q + 1 else h.deletes q }

@[simp] theorem read_empty (p : Nat) : (empty : Heap α).read p = none := rfl

theorem set_set (h : Heap α) (p : Nat) (first second : α) :
    (h.set p first).set p second = h.set p second := by
  unfold set
  congr 1
  funext q
  dsimp only
  split <;> rfl

theorem alloc_set (h : Heap α) (p : Nat) (first second : α) :
    (h.alloc p first).set p second = h.alloc p second := by
  unfold alloc set
  congr 1
  funext q
  dsimp only
  split <;> rfl

theorem read_set (h : Heap α) (p q : Nat) (value : α) :
    (h.set p value).read q = if q = p then some value else h.read q := rfl

theorem read_alloc (h : Heap α) (p q : Nat) (value : α) :
    (h.alloc p value).read q = if q = p then some value else h.read q := rfl

theorem read_free (h : Heap α) (p q : Nat) :
    (h.free p).read q = if q = p then none else h.read q := rfl

/-- A cell that is in use is not one that is not. -/
theorem ne_of_read {h : Heap α} {p q : Nat} {value : α} (found : h.read q = some value)
    (unused : h.read p = none) : q ≠ p := by
  rintro rfl
  rw [unused] at found
  cases found

@[simp] theorem read_set_self (h : Heap α) (p : Nat) (value : α) :
    (h.set p value).read p = some value := if_pos rfl

@[simp] theorem read_alloc_self (h : Heap α) (p : Nat) (value : α) :
    (h.alloc p value).read p = some value := if_pos rfl

@[simp] theorem read_free_self (h : Heap α) (p : Nat) : (h.free p).read p = none := if_pos rfl

theorem read_foldl_free (ptrs : List Nat) (h : Heap α) (q : Nat) :
    (ptrs.foldl Heap.free h).read q = if q ∈ ptrs then none else h.read q := by
  induction ptrs generalizing h with
  | nil => simp
  | cons p ptrs ih =>
    rw [List.foldl_cons, ih, read_free]
    by_cases later : q ∈ ptrs
    · simp [later]
    · simp [later]

/-- A view of the cells that an update does not show in. -/
theorem map_read_set {β : Type} (f : α → β) (h : Heap α) (p q : Nat) (value value' : α)
    (cell : h.read p = some value) (same : f value' = f value) :
    ((h.set p value').read q).map f = (h.read q).map f := by
  rw [read_set]
  split
  next here => rw [here, cell, Option.map_some, Option.map_some, same]
  · rfl

/-- Every allocation but that of a live cell has been freed once. -/
def Balanced (h : Heap α) : Prop :=
  ∀ p, h.news p = h.deletes p + if (h.read p).isSome then 1 else 0

theorem balanced_empty : (empty : Heap α).Balanced := fun _ => rfl

theorem Balanced.set {h : Heap α} (balanced : h.Balanced) (p : Nat) (value : α)
    (live : (h.read p).isSome) : (h.set p value).Balanced := by
  intro q
  rw [read_set]
  by_cases same : q = p
  · subst same
    simpa [Heap.set, live] using balanced q
  · simpa [Heap.set, same] using balanced q

theorem Balanced.alloc {h : Heap α} (balanced : h.Balanced) (p : Nat) (value : α)
    (fresh : h.read p = none) : (h.alloc p value).Balanced := by
  intro q
  have before := balanced q
  rw [read_alloc]
  by_cases same : q = p
  · subst same
    simpa [Heap.alloc, Heap.set, fresh] using before
  · simpa [Heap.alloc, Heap.set, same] using before

theorem Balanced.free {h : Heap α} (balanced : h.Balanced) (p : Nat)
    (live : (h.read p).isSome) : (h.free p).Balanced := by
  intro q
  have before := balanced q
  rw [read_free]
  by_cases same : q = p
  · subst same
    simpa [Heap.free, live] using before
  · simpa [Heap.free, same] using before

/-! ## Reference counts -/

/-- Counters agree with the references, and everything referenced is live. -/
structure Exact (count : α → Int) (h : Heap α) (refs : Nat → Nat) : Prop where
  counts : ∀ p value, h.read p = some value → count value = refs p
  live : ∀ p, refs p ≠ 0 → (h.read p).isSome

/-- Everything live is referenced. -/
def Collected (h : Heap α) (refs : Nat → Nat) : Prop :=
  ∀ p, (h.read p).isSome → refs p ≠ 0

/-- Decrement a counter and free the cell when it reaches zero. -/
def release (count : α → Int) (drop : α → α) (h : Heap α) (p : Nat) : Option (Heap α) :=
  (h.read p).map fun value =>
    if count (drop value) = 0 then h.free p else h.set p (drop value)

section

variable {count : α → Int} {h : Heap α} {refs refs' : Nat → Nat}

theorem Exact.set (exact : Exact count h refs) (p : Nat) (value : α)
    (here : count value = refs' p) (elsewhere : ∀ q, q ≠ p → refs' q = refs q) :
    Exact count (h.set p value) refs' := by
  constructor
  · intro q found read
    rw [read_set] at read
    split at read
    next same => cases read; rw [same]; exact here
    next other => rw [elsewhere q other]; exact exact.counts q found read
  · intro q referenced
    rw [read_set]
    split
    · rfl
    next other => rw [elsewhere q other] at referenced; exact exact.live q referenced

theorem Exact.free (exact : Exact count h refs) (p : Nat)
    (here : refs' p = 0) (elsewhere : ∀ q, q ≠ p → refs' q = refs q) :
    Exact count (h.free p) refs' := by
  constructor
  · intro q found read
    rw [read_free] at read
    split at read
    · cases read
    next other => rw [elsewhere q other]; exact exact.counts q found read
  · intro q referenced
    rw [read_free]
    split
    next same => rw [same] at referenced; exact absurd here referenced
    next other => rw [elsewhere q other] at referenced; exact exact.live q referenced

/-- What giving up one reference does to a heap: counts stay exact, the other
cells stay as they are, and the cell itself is dropped once or freed. -/
structure Released (count : α → Int) (drop : α → α) (h h' : Heap α) (p : Nat)
    (refs' : Nat → Nat) : Prop where
  exact : Exact count h' refs'
  elsewhere : ∀ q, q ≠ p → h'.read q = h.read q
  here : h'.read p = none ∨ h'.read p = (h.read p).map drop
  collected : (h'.read p).isSome → refs' p ≠ 0
  balanced : h.Balanced → h'.Balanced

theorem Exact.release (drop : α → α) (decrements : ∀ value, count (drop value) = count value - 1)
    (exact : Exact count h refs) (p : Nat) (here : refs p = refs' p + 1)
    (elsewhere : ∀ q, q ≠ p → refs' q = refs q) :
    ∃ h', Heap.release count drop h p = some h' ∧ Released count drop h h' p refs' := by
  obtain ⟨value, read⟩ := Option.isSome_iff_exists.mp (exact.live p (by omega))
  have counted := exact.counts p value read
  have dropped := decrements value
  have live : (h.read p).isSome := by rw [read]; rfl
  rw [Heap.release, read, Option.map_some]
  -- The counter comes to zero exactly with the last reference.
  split
  next zero =>
    refine ⟨_, rfl, exact.free p (by omega) elsewhere, ?_, by simp, by simp, ?_⟩
    · intro q other
      rw [read_free, if_neg other]
    · exact fun balanced => balanced.free p live
  next positive =>
    refine ⟨_, rfl, exact.set p _ (by omega) elsewhere, ?_, by simp [read], ?_, ?_⟩
    · intro q other
      rw [read_set, if_neg other]
    · intro _
      omega
    · exact fun balanced => balanced.set p _ live

theorem Released.collects {drop : α → α} {h' : Heap α} {p : Nat}
    (released : Released count drop h h' p refs') (before : Collected h refs)
    (elsewhere : ∀ q, q ≠ p → refs' q = refs q) : Collected h' refs' := by
  intro q live
  by_cases here : q = p
  · rw [here] at live ⊢
    exact released.collected live
  · rw [released.elsewhere q here] at live
    rw [elsewhere q here]
    exact before q live

end

/-! ### Giving up many references -/

/-- Release a list of pointers, one after the other. -/
def releaseAll (count : α → Int) (drop : α → α) (h : Heap α) (ps : List Nat) : Option (Heap α) :=
  ps.foldlM (release count drop) h

/-- Whatever is left has the content it had before. -/
def Keeps {β : Type} (content : α → β) (h h' : Heap α) : Prop :=
  ∀ q value', h'.read q = some value' → ∃ value, h.read q = some value ∧ content value = content value'

theorem Keeps.refl {β : Type} (content : α → β) (h : Heap α) : Keeps content h h :=
  fun _ value found => ⟨value, found, rfl⟩

theorem Keeps.trans {β : Type} {content : α → β} {a b c : Heap α} (first : Keeps content a b)
    (second : Keeps content b c) : Keeps content a c := by
  intro q value found
  obtain ⟨middle, read, same⟩ := second q value found
  obtain ⟨value', read', same'⟩ := first q middle read
  exact ⟨value', read', same'.trans same⟩

section

variable {β : Type} {content : α → β} {count : α → Int} {drop : α → α}
  (kept : ∀ value, content (drop value) = content value)
include kept

theorem release_keeps (h h' : Heap α) (p : Nat) (released : release count drop h p = some h') :
    Keeps content h h' := by
  intro q value' found
  -- The cell is freed, or it gets a value of the same content.
  simp only [release, Option.map_eq_some_iff] at released
  obtain ⟨value, read, rfl⟩ := released
  split at found
  · rw [read_free] at found
    split at found
    · cases found
    · exact ⟨value', found, rfl⟩
  · rw [read_set] at found
    split at found
    next here =>
      cases found
      exact ⟨value, by rw [here, read], (kept value).symm⟩
    · exact ⟨value', found, rfl⟩

theorem releaseAll_keeps (ps : List Nat) (h h' : Heap α)
    (released : releaseAll count drop h ps = some h') : Keeps content h h' := by
  induction ps generalizing h with
  | nil => cases released; exact .refl content _
  | cons p ps ih =>
    simp only [releaseAll, List.foldlM_cons, Option.bind_eq_bind, Option.bind_eq_some_iff] at released
    obtain ⟨middle, first, rest⟩ := released
    exact (release_keeps kept h middle p first).trans (ih middle rest)

end

/-- Nothing but live cells can be released. -/
theorem releaseAll_live {count : α → Int} {drop : α → α} (ps : List Nat) (h h' : Heap α)
    (released : releaseAll count drop h ps = some h') : ∀ p ∈ ps, (h.read p).isSome := by
  induction ps generalizing h with
  | nil => simp
  | cons p ps ih =>
    simp only [releaseAll, List.foldlM_cons, Option.bind_eq_bind, Option.bind_eq_some_iff] at released
    obtain ⟨middle, first, rest⟩ := released
    rw [List.forall_mem_cons]
    constructor
    · simp only [release, Option.map_eq_some_iff] at first
      obtain ⟨value, read, _⟩ := first
      rw [read]
      rfl
    · intro q later
      -- A release brings no cell to life, so what is alive later was alive before.
      obtain ⟨value, read⟩ := Option.isSome_iff_exists.mp (ih middle rest q later)
      have kept : Keeps (fun _ => ()) h middle :=
        release_keeps (fun value => (rfl : () = (fun _ => ()) (drop value))) h middle p first
      obtain ⟨value', read', _⟩ := kept q value read
      rw [read']
      rfl

structure ReleasedAll (count : α → Int) (h h' : Heap α) (ps : List Nat) (refs refs' : Nat → Nat) :
    Prop where
  exact : Exact count h' refs'
  elsewhere : ∀ q, q ∉ ps → h'.read q = h.read q
  collected : Collected h refs → Collected h' refs'
  balanced : h.Balanced → h'.Balanced

/-- With exact counts, references can be given up one by one. -/
theorem Exact.releaseAll {count : α → Int} (drop : α → α)
    (decrements : ∀ value, count (drop value) = count value - 1) (ps : List Nat) (h : Heap α)
    (refs refs' : Nat → Nat) (exact : Exact count h refs)
    (given : ∀ q, refs q = refs' q + ps.count q) :
    ∃ h', Heap.releaseAll count drop h ps = some h' ∧ ReleasedAll count h h' ps refs refs' := by
  induction ps generalizing h refs with
  | nil =>
    have same : refs = refs' := by
      funext q
      simpa using given q
    subst same
    exact ⟨h, rfl, exact, fun _ _ => rfl, id, id⟩
  | cons p ps ih =>
    have here : refs p = (refs' p + ps.count p) + 1 := by
      have all := given p
      rw [List.count_cons_self] at all
      omega
    have elsewhere : ∀ q, q ≠ p → refs' q + ps.count q = refs q := by
      intro q other
      rw [given q, List.count_cons_of_ne other.symm]
    have one : ∃ middle, Heap.release count drop h p = some middle ∧
        Released count drop h middle p fun q => refs' q + ps.count q :=
      exact.release drop decrements p here elsewhere
    obtain ⟨middle, first, released⟩ := one
    -- The rest of the list is given up on a heap that is exact for what it still holds.
    obtain ⟨h', rest, all⟩ := ih middle _ released.exact (fun _ => rfl)
    refine ⟨h', ?_, all.exact, ?_, ?_, ?_⟩
    · rw [Heap.releaseAll, List.foldlM_cons, first]
      exact rest
    · intro q outside
      rw [List.mem_cons, not_or] at outside
      rw [all.elsewhere q outside.2, released.elsewhere q outside.1]
    · exact fun before => all.collected (released.collects before elsewhere)
    · exact fun before => all.balanced (released.balanced before)

/-! ### References held in lists -/

section

variable {ι : Type} {queue queue' : ι → List Nat} {holders : List ι}

/-- How often the holders' lists contain a pointer. -/
def heldBy (queue : ι → List Nat) (holders : List ι) (p : Nat) : Nat :=
  (holders.map fun q => (queue q).count p).sum

theorem heldBy_congr (same : ∀ q ∈ holders, queue' q = queue q) :
    heldBy queue' holders = heldBy queue holders := by
  funext p
  simp only [heldBy]
  congr 1
  apply List.map_congr_left
  intro q member
  rw [same q member]

theorem heldBy_perm {others : List ι} (perm : holders.Perm others) :
    heldBy queue holders = heldBy queue others := by
  funext p
  exact (perm.map _).sum_eq

theorem heldBy_ne_zero (p : Nat) : heldBy queue holders p ≠ 0 ↔ ∃ q ∈ holders, p ∈ queue q := by
  simp only [heldBy]
  induction holders with
  | nil => simp
  | cons q holders ih =>
    rw [List.map_cons, List.sum_cons, List.exists_mem_cons_iff, ← ih, ← List.count_pos_iff]
    omega

/-- A change of one holder's list. -/
theorem heldBy_update [DecidableEq ι] (nodup : holders.Nodup) (q : ι) (member : q ∈ holders)
    (elsewhere : ∀ r, r ≠ q → queue' r = queue r) (p : Nat) :
    heldBy queue' holders p + (queue q).count p = heldBy queue holders p + (queue' q).count p := by
  -- The holder is taken out on both sides; the others contribute the same.
  have parts := List.perm_cons_erase member
  have others : heldBy queue' (holders.erase q) = heldBy queue (holders.erase q) := by
    apply heldBy_congr
    intro r inside
    exact elsewhere r (nodup.mem_erase_iff.mp inside).1
  rw [heldBy_perm parts, heldBy_perm parts]
  have rest := congrFun others p
  simp only [heldBy] at rest ⊢
  simp only [List.map_cons, List.sum_cons, rest]
  omega

/-- A pointer that is appended to the lists of some of the holders. -/
theorem heldBy_append (m : Nat) (chosen : ι → Bool)
    (appended : ∀ q ∈ holders, queue' q = queue q ++ if chosen q then [m] else []) (p : Nat) :
    heldBy queue' holders p = heldBy queue holders p + if p = m then holders.countP chosen else 0 := by
  simp only [heldBy]
  induction holders with
  | nil => simp
  | cons q holders ih =>
    rw [List.forall_mem_cons] at appended
    rw [List.map_cons, List.map_cons, List.sum_cons, List.sum_cons, ih appended.2, appended.1,
      List.count_append, List.countP_cons]
    by_cases here : p = m
    · subst here
      cases chosen q <;> simp <;> omega
    · cases chosen q <;> simp [here, Ne.symm here]

/-- Lists without repetitions count their holders. -/
theorem heldBy_eq_countP (nodup : ∀ q ∈ holders, (queue q).Nodup) (p : Nat) :
    heldBy queue holders p = holders.countP fun q => p ∈ queue q := by
  simp only [heldBy]
  induction holders with
  | nil => rfl
  | cons q holders ih =>
    rw [List.forall_mem_cons] at nodup
    rw [List.map_cons, List.sum_cons, ih nodup.2, List.countP_cons]
    -- A list without repetitions contains a pointer once or not at all.
    by_cases member : p ∈ queue q
    · rw [List.nodup_iff_count_eq_one.mp nodup.1 p member]
      simp [member, Nat.add_comm]
    · rw [List.count_eq_zero_of_not_mem member]
      simp [member]

/-- Distinct members of a list without repetitions, counted. -/
theorem countP_mem [DecidableEq ι] {chosen : List ι} (nodup : holders.Nodup)
    (distinct : chosen.Nodup) (inside : ∀ q ∈ chosen, q ∈ holders) :
    (holders.countP fun q => q ∈ chosen) = chosen.length := by
  rw [List.countP_eq_length_filter]
  apply List.Perm.length_eq
  apply (List.perm_ext_iff_of_nodup (nodup.filter _) distinct).mpr
  intro q
  simpa using inside q

end

end Heap

end PubSub.General
