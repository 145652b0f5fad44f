import Mathlib.Data.List.ProdSigma
import Mathlib.Data.List.Nodup
import Mathlib.Logic.Function.Basic

namespace WebFort.Library.Grid

-- Position of column x, row y in a column-major array of h rows.
def index (h x y : Nat) : Nat := x * h + y

theorem index_lt {w h x y : Nat} (hx : x < w) (hy : y < h) : index h x y < w * h := by
  have hc : (x + 1) * h ≤ w * h := Nat.mul_le_mul_right h hx
  rw [Nat.succ_mul] at hc
  unfold index
  omega

theorem index_div {h x y : Nat} (hy : y < h) : index h x y / h = x := by
  unfold index
  rw [Nat.add_comm, Nat.add_mul_div_right _ _ (by omega), Nat.div_eq_of_lt hy, Nat.zero_add]

theorem index_mod {h x y : Nat} (hy : y < h) : index h x y % h = y := by
  unfold index
  rw [Nat.mul_comm, Nat.mul_add_mod, Nat.mod_eq_of_lt hy]

theorem index_inj {h x y x' y' : Nat} (hy : y < h) (hy' : y' < h)
    (he : index h x y = index h x' y') : x = x' ∧ y = y' := by
  refine ⟨?_, ?_⟩
  · rw [← index_div (x := x) hy, he, index_div hy']
  · rw [← index_mod (x := x) hy, he, index_mod hy']

theorem index_div_mod (h t : Nat) : index h (t / h) (t % h) = t := by
  unfold index
  rw [Nat.mul_comm]
  exact Nat.div_add_mod t h

theorem exists_index {w h t : Nat} (ht : t < w * h) :
    ∃ x y, x < w ∧ y < h ∧ t = index h x y := by
  have hh : 0 < h := Nat.pos_of_ne_zero (by rintro rfl; simp at ht)
  exact ⟨t / h, t % h, Nat.div_lt_of_lt_mul (by rwa [Nat.mul_comm]), Nat.mod_lt _ hh,
    (index_div_mod h t).symm⟩

-- The order of two nested loops, the outer one over the columns.
def columns (w h : Nat) : List (Nat × Nat) := List.range w ×ˢ List.range h

-- The same with the outer loop over the rows.
def rows (w h : Nat) : List (Nat × Nat) :=
  (List.range h).flatMap fun y => (List.range w).map fun x => (x, y)

theorem mem_columns {w h : Nat} {p : Nat × Nat} : p ∈ columns w h ↔ p.1 < w ∧ p.2 < h := by
  rcases p with ⟨x, y⟩
  simp [columns]

theorem mem_rows {w h : Nat} {p : Nat × Nat} : p ∈ rows w h ↔ p.1 < w ∧ p.2 < h := by
  rcases p with ⟨x, y⟩
  simp only [rows, List.mem_flatMap, List.mem_range, List.mem_map, Prod.mk.injEq]
  constructor
  · rintro ⟨_, hy, _, hx, rfl, rfl⟩
    exact ⟨hx, hy⟩
  · rintro ⟨hx, hy⟩
    exact ⟨y, hy, x, hx, rfl, rfl⟩

theorem nodup_rows (w h : Nat) : (rows w h).Nodup := by
  refine List.nodup_flatMap.mpr ⟨fun y _ => ?_, ?_⟩
  · exact List.nodup_range.map fun _ _ he => (Prod.mk.injEq _ _ _ _ ▸ he).1
  · refine List.nodup_range.imp ?_
    intro y y' hne p hp hp'
    obtain ⟨_, _, rfl⟩ := List.mem_map.mp hp
    obtain ⟨_, _, he⟩ := List.mem_map.mp hp'
    exact hne (congrArg Prod.snd he).symm

theorem length_rows (w h : Nat) : (rows w h).length = w * h := by
  simp [rows, List.length_flatMap, Nat.mul_comm]

theorem mem_columns_index {w h t : Nat} :
    t ∈ (columns w h).map (fun p => index h p.1 p.2) ↔ t < w * h := by
  rw [List.mem_map]
  constructor
  · rintro ⟨p, hp, rfl⟩
    obtain ⟨hx, hy⟩ := mem_columns.mp hp
    exact index_lt hx hy
  · intro ht
    obtain ⟨x, y, hx, hy, rfl⟩ := exists_index ht
    exact ⟨(x, y), mem_columns.mpr ⟨hx, hy⟩, rfl⟩

theorem mem_rows_index {w h t : Nat} :
    t ∈ (rows w h).map (fun p => index h p.1 p.2) ↔ t < w * h := by
  rw [← mem_columns_index]
  simp only [List.mem_map, mem_rows, mem_columns]

-- Each position of the array comes up once.
theorem nodup_rows_index (w h : Nat) : ((rows w h).map fun p => index h p.1 p.2).Nodup := by
  refine (nodup_rows w h).map_on fun p hp q hq he => ?_
  obtain ⟨hx, hy⟩ := index_inj (mem_rows.mp hp).2 (mem_rows.mp hq).2 he
  exact Prod.ext hx hy

section Writes

variable {ι κ α : Type*} [DecidableEq κ]

-- A loop that stores at each index a value determined by the index.
theorem foldl_update_apply (idx : ι → κ) (v : ι → α) (f : κ → α) (l : List ι)
    (hv : ∀ i ∈ l, v i = f (idx i)) (b : κ → α) (j : κ) :
    l.foldl (fun b i => Function.update b (idx i) (v i)) b j =
      if j ∈ l.map idx then f j else b j := by
  induction l generalizing b with
  | nil => rfl
  | cons i l ih =>
      rw [List.foldl_cons, ih fun k hk => hv k (List.mem_cons_of_mem _ hk)]
      by_cases hl : j ∈ l.map idx
      · simp [hl]
      · by_cases hj : j = idx i
        · simp [hj, hv i List.mem_cons_self]
        · simp [hl, hj]

-- The last store at an index is the one that counts.
theorem foldl_update_last (idx : ι → κ) (v : ι → α) (l : List ι) (b : κ → α) (j : κ) :
    ((∀ i ∈ l, idx i ≠ j) ∧ l.foldl (fun b i => Function.update b (idx i) (v i)) b j = b j) ∨
      ∃ seen i rest, l = seen ++ i :: rest ∧ idx i = j ∧ (∀ k ∈ rest, idx k ≠ j) ∧
        l.foldl (fun b i => Function.update b (idx i) (v i)) b j = v i := by
  induction l generalizing b with
  | nil => exact Or.inl ⟨fun i hi => absurd hi List.not_mem_nil, rfl⟩
  | cons i l ih =>
      rw [List.foldl_cons]
      rcases ih (Function.update b (idx i) (v i)) with ⟨hno, hsame⟩ | ⟨seen, k, rest, rfl, hk, hlast, hval⟩
      · by_cases hi : idx i = j
        · refine Or.inr ⟨[], i, l, rfl, hi, hno, ?_⟩
          rw [hsame, ← hi, Function.update_self]
        · refine Or.inl ⟨List.forall_mem_cons.mpr ⟨hi, hno⟩, ?_⟩
          rw [hsame, Function.update_of_ne (Ne.symm hi)]
      · exact Or.inr ⟨i :: seen, k, rest, rfl, hk, hlast, hval⟩

-- Two nested loops over the whole array, the outer one over the columns.
theorem foldl_columns_apply (c : Nat → Nat → α) (w h : Nat) (b : Nat → α) (t : Nat) :
    (columns w h).foldl (fun b p => Function.update b (index h p.1 p.2) (c p.1 p.2)) b t =
      if t < w * h then c (t / h) (t % h) else b t := by
  have hv : ∀ p ∈ columns w h,
      c p.1 p.2 = c (index h p.1 p.2 / h) (index h p.1 p.2 % h) := by
    intro p hp
    obtain ⟨-, hy⟩ := mem_columns.mp hp
    rw [index_div hy, index_mod hy]
  rw [foldl_update_apply (fun p : Nat × Nat => index h p.1 p.2) (fun p => c p.1 p.2)
    (fun t => c (t / h) (t % h)) _ hv b t]
  simp only [mem_columns_index]

end Writes

end WebFort.Library.Grid
