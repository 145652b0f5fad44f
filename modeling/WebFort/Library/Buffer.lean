import Mathlib.Data.List.Basic

namespace WebFort.Library

variable {α : Type*}

-- A buffer after writes, the first one first.
def store (ws : List (Nat × α)) (buf : List α) : List α := ws.foldl (fun b w => b.set w.1 w.2) buf

-- Writes to one place that all write the same there.
def Agree (ws : List (Nat × α)) : Prop := ∀ w ∈ ws, ∀ w' ∈ ws, w.1 = w'.1 → w.2 = w'.2

theorem store_cons (w : Nat × α) (ws : List (Nat × α)) (buf : List α) :
    store (w :: ws) buf = store ws (buf.set w.1 w.2) := rfl

theorem store_append (ws ws' : List (Nat × α)) (buf : List α) :
    store (ws ++ ws') buf = store ws' (store ws buf) := List.foldl_append

@[simp] theorem length_store (ws : List (Nat × α)) (buf : List α) :
    (store ws buf).length = buf.length := by
  induction ws generalizing buf with
  | nil => rfl
  | cons w ws ih => rw [store_cons, ih, List.length_set]

theorem store_of_not_written {ws : List (Nat × α)} {o : Nat} (h : ∀ w ∈ ws, w.1 ≠ o)
    (buf : List α) : (store ws buf)[o]? = buf[o]? := by
  induction ws generalizing buf with
  | nil => rfl
  | cons w ws ih =>
      rw [store_cons, ih fun w hw => h w (List.mem_cons_of_mem _ hw)]
      exact List.getElem?_set_ne (h w List.mem_cons_self)

theorem store_of_written {ws : List (Nat × α)} (hws : Agree ws) {w : Nat × α} (hw : w ∈ ws)
    {buf : List α} (ho : w.1 < buf.length) : (store ws buf)[w.1]? = some w.2 := by
  induction ws generalizing buf w with
  | nil => cases hw
  | cons u ws ih =>
      have hrest : Agree ws := fun v hv v' hv' =>
        hws v (List.mem_cons_of_mem _ hv) v' (List.mem_cons_of_mem _ hv')
      rw [store_cons]
      by_cases hlater : ∃ v ∈ ws, v.1 = w.1
      · obtain ⟨v, hv, hplace⟩ := hlater
        have hsame : v.2 = w.2 := hws v (List.mem_cons_of_mem _ hv) w hw hplace
        rw [← hplace, ← hsame]
        exact ih hrest hv (by rw [List.length_set, hplace]; exact ho)
      · have hlast : ∀ v ∈ ws, v.1 ≠ w.1 := fun v hv hplace => hlater ⟨v, hv, hplace⟩
        have huw : w = u := by
          rcases List.mem_cons.mp hw with h | h
          · exact h
          · exact absurd rfl (hlast w h)
        rw [store_of_not_written hlast, ← huw, List.getElem?_set_self ho]

end WebFort.Library
