import Mathlib.Algebra.BigOperators.Group.List.Basic
import Mathlib.Algebra.Ring.Nat

namespace WebFort.Library

variable {α : Type*} (size : α → Nat)

-- What goes into `room` bytes when elements are put in from the front and the
-- first one that does not fit ends it.
def takeFit : Nat → List α → List α
  | _, [] => []
  | room, a :: as => if size a ≤ room then a :: takeFit (room - size a) as else []

def totalSize (as : List α) : Nat := (as.map size).sum

@[simp] theorem totalSize_nil : totalSize size [] = 0 := rfl

@[simp] theorem totalSize_cons (a : α) (as : List α) :
    totalSize size (a :: as) = size a + totalSize size as := rfl

theorem takeFit_initial (room : Nat) (as : List α) : takeFit size room as <+: as := by
  induction as generalizing room with
  | nil => exact List.prefix_refl []
  | cons a as ih =>
      unfold takeFit
      split
      · exact List.cons_prefix_cons.mpr ⟨rfl, ih _⟩
      · exact List.nil_prefix

theorem totalSize_takeFit_le (room : Nat) (as : List α) :
    totalSize size (takeFit size room as) ≤ room := by
  induction as generalizing room with
  | nil => exact Nat.zero_le room
  | cons a as ih =>
      unfold takeFit
      split
      · rename_i hfits
        have hrest := ih (room - size a)
        rw [totalSize_cons]
        omega
      · exact Nat.zero_le room

-- Nothing is left out when all of it fits.
theorem takeFit_of_le {room : Nat} {as : List α} (h : totalSize size as ≤ room) :
    takeFit size room as = as := by
  induction as generalizing room with
  | nil => rfl
  | cons a as ih =>
      rw [totalSize_cons] at h
      unfold takeFit
      rw [if_pos (by omega), ih (by omega)]

theorem length_flatMap_eq {β : Type*} (enc : α → List β) (as : List α) :
    (as.flatMap enc).length = totalSize (fun a => (enc a).length) as := by
  rw [List.length_flatMap]
  rfl

end WebFort.Library
