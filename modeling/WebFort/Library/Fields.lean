import Mathlib.Data.List.Nodup

namespace WebFort.Library

-- A record with one field of its own type under each key.
structure Fields {κ : Type*} (τ : κ → Type*) (σ : Type*) where
  get : (k : κ) → σ → τ k
  set : (k : κ) → τ k → σ → σ
  get_set : ∀ k v s, get k (set k v s) = v
  get_set_of_ne : ∀ {k j} v s, k ≠ j → get j (set k v s) = get j s

namespace Fields

variable {κ σ α : Type*} {τ : κ → Type*} (F : Fields τ σ)

-- One source gives every key at most one value, which may be unreadable.
abbrev Source (τ : κ → Type*) := (k : κ) → Option (Option (τ k))

def assign (vals : Source τ) : List κ → σ → Option σ
  | [], s => some s
  | k :: ks, s =>
      match vals k with
      | none => assign vals ks s
      | some none => none
      | some (some v) => assign vals ks (F.set k v s)

def assignAll (vals : α → Source τ) (ks : List κ) : List α → σ → Option σ
  | [], s => some s
  | a :: as, s => (F.assign (vals a) ks s).bind (assignAll vals ks as)

theorem assign_get {vals : Source τ} {ks : List κ} (hnodup : ks.Nodup)
    (hvals : ∀ k ∈ ks, vals k ≠ some none) (s : σ) :
    ∃ s', F.assign vals ks s = some s' ∧
      (∀ k ∈ ks, F.get k s' = (vals k).join.getD (F.get k s)) ∧
      ∀ k, k ∉ ks → F.get k s' = F.get k s := by
  induction ks generalizing s with
  | nil => exact ⟨s, rfl, by simp, by simp⟩
  | cons k ks ih =>
      obtain ⟨hk, hnodup⟩ := List.nodup_cons.mp hnodup
      have hrest : ∀ j ∈ ks, vals j ≠ some none := fun j hj => hvals j (List.mem_cons_of_mem _ hj)
      -- what the first key is given, before the other keys are
      obtain ⟨u, hu, hself, hother⟩ : ∃ u, F.assign vals (k :: ks) s = F.assign vals ks u ∧
          F.get k u = (vals k).join.getD (F.get k s) ∧ ∀ j, j ≠ k → F.get j u = F.get j s := by
        rcases hv : vals k with _ | _ | v
        · exact ⟨s, by simp [assign, hv], by simp, fun j _ => rfl⟩
        · exact absurd hv (hvals k List.mem_cons_self)
        · exact ⟨F.set k v s, by simp [assign, hv], by simp [F.get_set],
            fun j hj => F.get_set_of_ne v s (Ne.symm hj)⟩
      obtain ⟨s', hs', hin, hout⟩ := ih hnodup hrest u
      refine ⟨s', hu.trans hs', ?_, ?_⟩
      · intro j hj
        rcases List.mem_cons.mp hj with rfl | hj
        · rw [hout j hk, hself]
        · have hne : j ≠ k := fun h => hk (h ▸ hj)
          rw [hin j hj, hother j hne]
      · intro j hj
        obtain ⟨hne, hj⟩ := not_or.mp (fun h => hj (List.mem_cons.mpr h))
        rw [hout j hj, hother j hne]

theorem assign_eq_none_iff {vals : Source τ} {ks : List κ} (s : σ) :
    F.assign vals ks s = none ↔ ∃ k ∈ ks, vals k = some none := by
  induction ks generalizing s with
  | nil => simp [assign]
  | cons k ks ih =>
      rw [List.exists_mem_cons_iff, assign]
      rcases vals k with _ | _ | v
      · simp [ih]
      · simp
      · simp [ih]

-- The last source that gives a key a value decides it.
theorem assignAll_get {vals : α → Source τ} {ks : List κ} (hnodup : ks.Nodup)
    (hall : ∀ k, k ∈ ks) {as : List α} (hvals : ∀ a ∈ as, ∀ k, vals a k ≠ some none) (s : σ) :
    ∃ s', F.assignAll vals ks as s = some s' ∧
      ∀ k, F.get k s' = (as.reverse.findSome? fun a => (vals a k).join).getD (F.get k s) := by
  induction as generalizing s with
  | nil => exact ⟨s, rfl, by simp⟩
  | cons a as ih =>
      obtain ⟨u, hu, hget, -⟩ :=
        F.assign_get hnodup (fun k _ => hvals a List.mem_cons_self k) s
      obtain ⟨s', hs', hlast⟩ := ih (fun b hb => hvals b (List.mem_cons_of_mem _ hb)) u
      refine ⟨s', by rw [assignAll, hu, Option.bind_some, hs'], ?_⟩
      intro k
      rw [hlast k, hget k (hall k), List.reverse_cons, List.findSome?_append]
      cases as.reverse.findSome? fun a => (vals a k).join with
      | none => simp
      | some v => simp

theorem findSome?_eq_find? {β : Type*} {f : α → Option β} {p : α → Bool}
    {as : List α} (h : ∀ a ∈ as, (f a).isSome = p a) : as.findSome? f = (as.find? p).bind f := by
  induction as with
  | nil => rfl
  | cons a as ih =>
      rw [List.findSome?_cons, List.find?_cons, ← h a List.mem_cons_self]
      cases hf : f a with
      | none => exact ih fun b hb => h b (List.mem_cons_of_mem _ hb)
      | some b => simp [hf]

end Fields

end WebFort.Library
