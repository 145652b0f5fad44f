import Mathlib.Data.List.Basic

namespace WebFort.Library

-- Two queues that are emptied together, the left one first.

inductive Arrival (κ μ : Type*)
  | left (a : κ)
  | right (b : μ)
  | drain

namespace Arrival

variable {κ μ : Type*}

-- What the drains of a history take out, with what waits at its beginning.
def served : List κ → List μ → List (Arrival κ μ) → List (κ ⊕ μ)
  | _, _, [] => []
  | ks, ms, .left a :: rest => served (ks ++ [a]) ms rest
  | ks, ms, .right b :: rest => served ks (ms ++ [b]) rest
  | ks, ms, .drain :: rest => ks.map .inl ++ ms.map .inr ++ served [] [] rest

-- What still waits at its end.
def waiting : List κ → List μ → List (Arrival κ μ) → List κ × List μ
  | ks, ms, [] => (ks, ms)
  | ks, ms, .left a :: rest => waiting (ks ++ [a]) ms rest
  | ks, ms, .right b :: rest => waiting ks (ms ++ [b]) rest
  | _, _, .drain :: rest => waiting [] [] rest

def lefts (history : List (Arrival κ μ)) : List κ :=
  history.filterMap fun e => match e with
    | .left a => some a
    | _ => none

def rights (history : List (Arrival κ μ)) : List μ :=
  history.filterMap fun e => match e with
    | .right b => some b
    | _ => none

variable (ks : List κ) (ms : List μ)

theorem served_append (a b : List (Arrival κ μ)) :
    served ks ms (a ++ b) =
      served ks ms a ++ served (waiting ks ms a).1 (waiting ks ms a).2 b := by
  induction a generalizing ks ms with
  | nil => rfl
  | cons e a ih =>
      cases e with
      | left x => exact ih (ks ++ [x]) ms
      | right y => exact ih ks (ms ++ [y])
      | drain =>
          simp only [List.cons_append, served, waiting, ih [] [], List.append_assoc]

theorem waiting_append (a b : List (Arrival κ μ)) :
    waiting ks ms (a ++ b) = waiting (waiting ks ms a).1 (waiting ks ms a).2 b := by
  induction a generalizing ks ms with
  | nil => rfl
  | cons e a ih =>
      cases e with
      | left x => exact ih (ks ++ [x]) ms
      | right y => exact ih ks (ms ++ [y])
      | drain => exact ih [] []

theorem waiting_lefts (l : List κ) : waiting ks ms (l.map .left) = (ks ++ l, ms) := by
  induction l generalizing ks with
  | nil => simp [waiting]
  | cons a l ih => simp [waiting, ih]

theorem waiting_rights (l : List μ) : waiting ks ms (l.map .right) = (ks, ms ++ l) := by
  induction l generalizing ms with
  | nil => simp [waiting]
  | cons a l ih => simp [waiting, ih]

theorem served_lefts_only (l : List κ) : served ks ms (l.map .left) = [] := by
  induction l generalizing ks with
  | nil => rfl
  | cons a l ih => exact ih (ks ++ [a])

theorem served_rights_only (l : List μ) : served ks ms (l.map .right) = [] := by
  induction l generalizing ms with
  | nil => rfl
  | cons a l ih => exact ih (ms ++ [a])

-- Each queue is first in, first out, and nothing gets lost or comes twice.
theorem served_lefts (history : List (Arrival κ μ)) :
    (served ks ms history).filterMap Sum.getLeft? ++ (waiting ks ms history).1 =
      ks ++ lefts history := by
  induction history generalizing ks ms with
  | nil => simp [served, waiting, lefts]
  | cons e history ih =>
      cases e with
      | left a =>
          rw [served, waiting, ih]
          simp [lefts]
      | right b =>
          rw [served, waiting, ih]
          rfl
      | drain =>
          have hkeys : (ks.map (Sum.inl (β := μ))).filterMap Sum.getLeft? = ks := by
            simp [List.filterMap_map, Function.comp_def]
          have hmice : (ms.map (Sum.inr (α := κ))).filterMap Sum.getLeft? = [] := by
            simp [List.filterMap_map, Function.comp_def]
          have hrest := ih [] []
          rw [List.nil_append] at hrest
          simp only [served, waiting, List.filterMap_append, hkeys, hmice, List.append_assoc, hrest]
          rfl

theorem served_rights (history : List (Arrival κ μ)) :
    (served ks ms history).filterMap Sum.getRight? ++ (waiting ks ms history).2 =
      ms ++ rights history := by
  induction history generalizing ks ms with
  | nil => simp [served, waiting, rights]
  | cons e history ih =>
      cases e with
      | left a =>
          rw [served, waiting, ih]
          rfl
      | right b =>
          rw [served, waiting, ih]
          simp [rights]
      | drain =>
          have hkeys : (ks.map (Sum.inl (β := μ))).filterMap Sum.getRight? = [] := by
            simp [List.filterMap_map, Function.comp_def]
          have hmice : (ms.map (Sum.inr (α := κ))).filterMap Sum.getRight? = ms := by
            simp [List.filterMap_map, Function.comp_def]
          have hrest := ih [] []
          rw [List.nil_append] at hrest
          simp only [served, waiting, List.filterMap_append, hkeys, hmice, List.nil_append,
            List.append_assoc, hrest]
          rfl

end Arrival

end WebFort.Library
