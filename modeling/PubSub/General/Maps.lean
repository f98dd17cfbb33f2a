import Mathlib.Data.List.Basic
import Mathlib.Data.List.Nodup
import Std.Data.TreeMap.Lemmas

/-!
# Ordered maps

Tree maps seen through their lookups, and what the order of their entries means
for a search that stops at the first hit.
-/
namespace PubSub.General

open Std

variable {α β : Type} [Ord α] [TransOrd α] [LawfulEqOrd α]

theorem lookup_insert [DecidableEq α] (t : TreeMap α β) (k a : α) (v : β) :
    (t.insert k v)[a]? = if a = k then some v else t[a]? := by
  rw [TreeMap.getElem?_insert]
  by_cases same : a = k
  · rw [if_pos same, if_pos (LawfulEqCmp.compare_eq_iff_eq.mpr same.symm)]
  · rw [if_neg same, if_neg (fun equal => same (LawfulEqCmp.compare_eq_iff_eq.mp equal).symm)]

theorem lookup_erase [DecidableEq α] (t : TreeMap α β) (k a : α) :
    (t.erase k)[a]? = if a = k then none else t[a]? := by
  rw [TreeMap.getElem?_erase]
  by_cases same : a = k
  · rw [if_pos same, if_pos (LawfulEqCmp.compare_eq_iff_eq.mpr same.symm)]
  · rw [if_neg same, if_neg (fun equal => same (LawfulEqCmp.compare_eq_iff_eq.mp equal).symm)]

theorem lookup_of_split (t : TreeMap α β) (front back : List (α × β)) (k : α) (v : β)
    (split : t.toList = front ++ (k, v) :: back) : t[k]? = some v := by
  rw [← TreeMap.mem_toList_iff_getElem?_eq_some, split]
  exact List.mem_append_cons_self

/-- The values in the order of the keys. -/
def valuesOf (t : TreeMap α β) : List β := t.toList.map (·.2)

theorem mem_valuesOf (t : TreeMap α β) (v : β) : v ∈ valuesOf t ↔ ∃ k : α, t[k]? = some v := by
  simp only [valuesOf, List.mem_map, Prod.exists, TreeMap.mem_toList_iff_getElem?_eq_some]
  constructor
  · rintro ⟨k, value, found, rfl⟩
    exact ⟨k, found⟩
  · rintro ⟨k, found⟩
    exact ⟨k, v, found, rfl⟩

/-- Keys with different values make a list of values without repetitions. -/
theorem valuesOf_nodup (t : TreeMap α β)
    (injective : ∀ (k l : α) (v : β), t[k]? = some v → t[l]? = some v → k = l) : (valuesOf t).Nodup := by
  simp only [valuesOf]
  rw [List.Nodup, List.pairwise_map]
  -- Two entries with one value would have one key.
  apply TreeMap.distinct_keys_toList.imp_of_mem
  rintro ⟨k, v⟩ ⟨l, u⟩ first second distinct rfl
  rw [TreeMap.mem_toList_iff_getElem?_eq_some] at first second
  exact distinct (LawfulEqCmp.compare_eq_iff_eq.mpr (injective k l v first second))

theorem valuesOf_insert_new [DecidableEq α] (t : TreeMap α β) (k : α) (v : β)
    (absent : t[k]? = none) : (valuesOf (t.insert k v)).Perm (v :: valuesOf t) := by
  have lawful : LawfulBEqCmp (compare : α → α → Ordering) := ⟨by simp⟩
  have entries := (TreeMap.toList_insert_perm (t := t) (k := k) (v := v)).map (·.2)
  apply entries.trans
  rw [List.map_cons, List.filter_eq_self.mpr]
  · exact List.Perm.refl _
  · rintro ⟨l, u⟩ member
    rw [TreeMap.mem_toList_iff_getElem?_eq_some] at member
    have other : k ≠ l := by
      rintro rfl
      rw [absent] at member
      cases member
    simpa using other

/-- Different keys stand one in front of the other. -/
theorem compare_ne (k l : α) (different : k ≠ l) : compare k l = .lt ∨ compare l k = .lt := by
  cases order : compare k l with
  | lt => exact .inl rfl
  | eq => exact absurd (LawfulEqCmp.compare_eq_iff_eq.mp order) different
  | gt => exact .inr (OrientedCmp.gt_iff_lt.mp order)

/-- Entries with smaller keys stand in front. -/
theorem mem_front_of_lt (t : TreeMap α β) (front back : List (α × β)) (k l : α) (v u : β)
    (split : t.toList = front ++ (k, v) :: back) (found : t[l]? = some u)
    (less : compare l k = .lt) : (l, u) ∈ front := by
  have member := TreeMap.mem_toList_iff_getElem?_eq_some.mpr found
  have order := TreeMap.ordered_keys_toList (t := t)
  rw [split] at member order
  rw [List.mem_append, List.mem_cons] at member
  rcases member with front | here | back
  · exact front
  · cases here
    simp at less
  · -- Behind the hit all keys are larger.
    have behind := (List.pairwise_cons.mp (List.pairwise_append.mp order).2.1).1 _ back
    have swapped : compare l k = (compare k l).swap := OrientedCmp.eq_swap
    simp [less, behind] at swapped

end PubSub.General
