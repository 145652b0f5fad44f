import Mathlib.Data.List.Nodup
import Mathlib.Data.List.Sort

namespace WebFort.Library

-- An object with properties in the order in which they were created.
structure Record (κ υ : Type*) where
  entries : List (κ × υ)
  nodup : (entries.map Prod.fst).Nodup

namespace Record

variable {κ υ : Type*}

def empty : Record κ υ := ⟨[], List.nodup_nil⟩

-- The order of enumeration: the names that are indices first, ascending, then
-- the others as they were created.
def inOrder (index : κ → Option Nat) (r : Record κ υ) : List (κ × υ) :=
  (r.entries.filter fun e => (index e.1).isSome).insertionSort
      (fun e e' => (index e.1).getD 0 ≤ (index e'.1).getD 0) ++
    r.entries.filter fun e => !(index e.1).isSome

theorem inOrder_perm (index : κ → Option Nat) (r : Record κ υ) :
    (r.inOrder index).Perm r.entries :=
  ((List.perm_insertionSort _ _).append_right _).trans (List.filter_append_perm _ _)

theorem nodup_inOrder (index : κ → Option Nat) (r : Record κ υ) :
    ((r.inOrder index).map Prod.fst).Nodup :=
  ((r.inOrder_perm index).map Prod.fst).nodup_iff.mpr r.nodup

variable [DecidableEq κ]

def lookup (r : Record κ υ) (k : κ) : Option υ := r.entries.lookup k

-- A property that exists keeps its place.
def setEntries (k : κ) (v : υ) : List (κ × υ) → List (κ × υ)
  | [] => [(k, v)]
  | e :: es => if e.1 = k then (k, v) :: es else e :: setEntries k v es

theorem mem_keys_setEntries (k j : κ) (v : υ) (es : List (κ × υ)) :
    j ∈ (setEntries k v es).map Prod.fst ↔ j = k ∨ j ∈ es.map Prod.fst := by
  induction es with
  | nil => simp [setEntries]
  | cons e es ih =>
      by_cases hk : e.1 = k
      · rw [setEntries, if_pos hk, List.map_cons, List.map_cons, hk, List.mem_cons]
        tauto
      · rw [setEntries, if_neg hk, List.map_cons, List.map_cons, List.mem_cons, ih, List.mem_cons]
        tauto

theorem nodup_setEntries (k : κ) (v : υ) {es : List (κ × υ)} (h : (es.map Prod.fst).Nodup) :
    ((setEntries k v es).map Prod.fst).Nodup := by
  induction es with
  | nil => exact List.nodup_singleton k
  | cons e es ih =>
      obtain ⟨hnew, hrest⟩ := List.nodup_cons.mp h
      by_cases hk : e.1 = k
      · rw [setEntries, if_pos hk, List.map_cons, ← hk]
        exact h
      · rw [setEntries, if_neg hk, List.map_cons]
        refine List.nodup_cons.mpr ⟨fun hmem => ?_, ih hrest⟩
        rcases (mem_keys_setEntries k e.1 v es).mp hmem with he | he
        · exact hk he
        · exact hnew he

def set (r : Record κ υ) (k : κ) (v : υ) : Record κ υ where
  entries := setEntries k v r.entries
  nodup := nodup_setEntries k v r.nodup

def erase (r : Record κ υ) (k : κ) : Record κ υ where
  entries := r.entries.filter fun e => e.1 ≠ k
  nodup := r.nodup.sublist (List.filter_sublist.map Prod.fst)

@[simp] theorem lookup_empty (j : κ) : (empty : Record κ υ).lookup j = none := rfl

theorem lookup_cons (e : κ × υ) (es : List (κ × υ)) (j : κ) :
    (e :: es).lookup j = if e.1 = j then some e.2 else es.lookup j := by
  obtain ⟨k, v⟩ := e
  by_cases hk : k = j
  · subst hk
    rw [List.lookup_cons_self, if_pos rfl]
  · have hne : (j == k) = false := beq_eq_false_iff_ne.mpr (Ne.symm hk)
    rw [List.lookup_cons, hne, if_neg hk]

theorem lookup_setEntries (k j : κ) (v : υ) (es : List (κ × υ)) :
    (setEntries k v es).lookup j = if k = j then some v else es.lookup j := by
  induction es with
  | nil => exact lookup_cons (k, v) [] j
  | cons e es ih =>
      by_cases hk : e.1 = k
      · rw [setEntries, if_pos hk, lookup_cons, lookup_cons, hk]
        split <;> rfl
      · rw [setEntries, if_neg hk, lookup_cons, lookup_cons, ih]
        by_cases he : e.1 = j
        · rw [if_pos he, if_pos he, if_neg fun hj => hk (he.trans hj.symm)]
        · rw [if_neg he, if_neg he]

@[simp] theorem lookup_set (r : Record κ υ) (k j : κ) (v : υ) :
    (r.set k v).lookup j = if k = j then some v else r.lookup j := lookup_setEntries k j v r.entries

@[simp] theorem lookup_erase (r : Record κ υ) (k j : κ) :
    (r.erase k).lookup j = if k = j then none else r.lookup j := by
  show (r.entries.filter _).lookup j = if k = j then none else r.entries.lookup j
  induction r.entries with
  | nil => split <;> rfl
  | cons e es ih =>
      by_cases hk : e.1 = k
      · rw [List.filter_cons_of_neg (by simp [hk]), ih, lookup_cons, hk]
        split <;> rfl
      · rw [List.filter_cons_of_pos (by simp [hk]), lookup_cons, lookup_cons, ih]
        by_cases he : e.1 = j
        · rw [if_pos he, if_pos he, if_neg fun hj => hk (he.trans hj.symm)]
        · rw [if_neg he, if_neg he]

theorem lookup_eq_none_of_not_mem {j : κ} {es : List (κ × υ)} (h : j ∉ es.map Prod.fst) :
    es.lookup j = none := by
  induction es with
  | nil => rfl
  | cons e es ih =>
      obtain ⟨he, hes⟩ := not_or.mp (mt List.mem_cons.mpr h)
      rw [lookup_cons, if_neg (Ne.symm he)]
      exact ih hes

theorem lookup_perm {es es' : List (κ × υ)} (h : es.Perm es') (hes : (es.map Prod.fst).Nodup)
    (j : κ) : es.lookup j = es'.lookup j := by
  induction h with
  | nil => rfl
  | cons e h ih => rw [lookup_cons, lookup_cons, ih (List.nodup_cons.mp hes).2]
  | swap e e' es =>
      have hne : e'.1 ≠ e.1 := fun heq =>
        (List.nodup_cons.mp hes).1 (heq ▸ List.mem_cons_self)
      simp only [lookup_cons]
      by_cases he : e.1 = j
      · rw [if_pos he, if_pos he, if_neg fun he' => hne (he'.trans he.symm)]
      · rw [if_neg he, if_neg he]
  | trans h _ ih ih' => exact (ih hes).trans (ih' ((h.map Prod.fst).nodup_iff.mp hes))

theorem lookup_inOrder (index : κ → Option Nat) (r : Record κ υ) (j : κ) :
    (r.inOrder index).lookup j = r.lookup j :=
  lookup_perm (r.inOrder_perm index) (r.nodup_inOrder index) j

-- Properties that are put one after the other, where each has its own name,
-- go before those that were there.
theorem lookup_foldl {put : Record κ υ → κ × υ → Record κ υ} {j : κ}
    (hput : ∀ r e, (put r e).lookup j = if e.1 = j then some e.2 else r.lookup j)
    {es : List (κ × υ)} (hes : (es.map Prod.fst).Nodup) (r : Record κ υ) :
    (es.foldl put r).lookup j = (es.lookup j).or (r.lookup j) := by
  induction es generalizing r with
  | nil => rfl
  | cons e es ih =>
      obtain ⟨hnew, hrest⟩ := List.nodup_cons.mp hes
      rw [List.foldl_cons, ih hrest, lookup_cons, hput]
      by_cases he : e.1 = j
      · rw [lookup_eq_none_of_not_mem (he ▸ hnew), if_pos he, if_pos he]
        rfl
      · rw [if_neg he, if_neg he]

theorem findSome?_cons (obj : Record κ υ) (objs : List (Record κ υ)) (j : κ) :
    ((obj :: objs).findSome? fun obj => obj.lookup j) =
      (obj.lookup j).or (objs.findSome? fun obj => obj.lookup j) := by
  rw [List.findSome?_cons]
  cases obj.lookup j <;> rfl

-- The last one of several records that has a property decides on it.
theorem lookup_layers {put : Record κ υ → κ × υ → Record κ υ} {j : κ}
    (hput : ∀ r e, (put r e).lookup j = if e.1 = j then some e.2 else r.lookup j)
    (index : κ → Option Nat) (rs : List (Record κ υ)) (r : Record κ υ) :
    (rs.foldl (fun r obj => (obj.inOrder index).foldl put r) r).lookup j =
      (rs.reverse.findSome? fun obj => obj.lookup j).or (r.lookup j) := by
  induction rs generalizing r with
  | nil => rfl
  | cons obj rs ih =>
      rw [List.foldl_cons, ih, lookup_foldl hput (obj.nodup_inOrder index), lookup_inOrder,
        List.reverse_cons, List.findSome?_append, ← Option.or_assoc]
      congr 1
      show _ = Option.or _ (List.findSome? _ [obj])
      rw [List.findSome?_singleton]

end Record

end WebFort.Library
