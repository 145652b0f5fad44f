import Mathlib.Order.Lattice
import Mathlib.Data.List.Nodup

namespace WebFort.Library

-- A map as the list of its entries in increasing key order, the order in
-- which it is iterated.
structure OrdMap (κ υ : Type*) [LinearOrder κ] where
  entries : List (κ × υ)
  sorted : (entries.map Prod.fst).Pairwise (· < ·)

namespace OrdMap

variable {κ υ σ : Type*} [LinearOrder κ]

def lookup (k : κ) : List (κ × υ) → Option υ
  | [] => none
  | e :: es => if e.1 = k then some e.2 else lookup k es

def insertEntry (k : κ) (v : υ) : List (κ × υ) → List (κ × υ)
  | [] => [(k, v)]
  | e :: es =>
      if k < e.1 then (k, v) :: e :: es
      else if k = e.1 then (k, v) :: es
      else e :: insertEntry k v es

-- The loop body sees the key, the value and the state left by the entries
-- before it, and gives the new value and state.
def accumEntries (f : κ → υ → σ → υ × σ) : List (κ × υ) → σ → List (κ × υ) × σ
  | [], s => ([], s)
  | e :: es, s =>
      let r := f e.1 e.2 s
      let rest := accumEntries f es r.2
      ((e.1, r.1) :: rest.1, rest.2)

theorem lookup_eq_none (k : κ) (es : List (κ × υ)) :
    lookup k es = none ↔ k ∉ es.map Prod.fst := by
  induction es with
  | nil => simp [lookup]
  | cons e es ih =>
      by_cases hk : e.1 = k
      · simp [lookup, hk]
      · simp [lookup, hk, ih, Ne.symm hk]

theorem mem_of_lookup {k : κ} {v : υ} {es : List (κ × υ)} (h : lookup k es = some v) :
    (k, v) ∈ es := by
  induction es with
  | nil => simp [lookup] at h
  | cons e es ih =>
      by_cases hk : e.1 = k
      · have hv : e.2 = v := by simpa [lookup, hk] using h
        simp [← hk, ← hv]
      · exact List.mem_cons_of_mem _ (ih (by simpa [lookup, hk] using h))

theorem lookup_of_mem {k : κ} {v : υ} {es : List (κ × υ)}
    (hs : (es.map Prod.fst).Pairwise (· < ·)) (h : (k, v) ∈ es) : lookup k es = some v := by
  induction es with
  | nil => simp at h
  | cons e es ih =>
      simp only [List.map_cons, List.pairwise_cons] at hs
      rcases List.mem_cons.mp h with rfl | h
      · simp [lookup]
      · have hlt := hs.1 k (List.mem_map.mpr ⟨(k, v), h, rfl⟩)
        simp [lookup, ne_of_lt hlt, ih hs.2 h]

theorem insertEntry_before (k : κ) (v : υ) (e : κ × υ) (es : List (κ × υ)) (h : k < e.1) :
    insertEntry k v (e :: es) = (k, v) :: e :: es := if_pos h

theorem insertEntry_here (v : υ) (e : κ × υ) (es : List (κ × υ)) :
    insertEntry e.1 v (e :: es) = (e.1, v) :: es := by
  simp [insertEntry]

theorem insertEntry_after (k : κ) (v : υ) (e : κ × υ) (es : List (κ × υ)) (h : e.1 < k) :
    insertEntry k v (e :: es) = e :: insertEntry k v es := by
  simp [insertEntry, not_lt_of_gt h, ne_of_gt h]

theorem insertEntry_keys (k : κ) (v : υ) (es : List (κ × υ)) (x : κ) :
    x ∈ (insertEntry k v es).map Prod.fst ↔ x = k ∨ x ∈ es.map Prod.fst := by
  induction es with
  | nil => simp [insertEntry]
  | cons e es ih =>
      rcases lt_trichotomy k e.1 with hlt | rfl | hgt
      · rw [insertEntry_before k v e es hlt]
        simp only [List.map_cons, List.mem_cons]
      · rw [insertEntry_here]
        simp only [List.map_cons, List.mem_cons, or_self_left]
      · rw [insertEntry_after k v e es hgt]
        simp only [List.map_cons, List.mem_cons, ih]
        exact or_left_comm

theorem insertEntry_sorted (k : κ) (v : υ) (es : List (κ × υ))
    (hs : (es.map Prod.fst).Pairwise (· < ·)) :
    ((insertEntry k v es).map Prod.fst).Pairwise (· < ·) := by
  induction es with
  | nil => simp [insertEntry]
  | cons e es ih =>
      have hes := hs
      simp only [List.map_cons, List.pairwise_cons] at hs
      rcases lt_trichotomy k e.1 with hlt | rfl | hgt
      · rw [insertEntry_before k v e es hlt]
        refine List.pairwise_cons.mpr ⟨?_, hes⟩
        intro x hx
        rcases List.mem_cons.mp hx with rfl | hx
        · exact hlt
        · exact lt_trans hlt (hs.1 x hx)
      · rw [insertEntry_here]
        exact hes
      · rw [insertEntry_after k v e es hgt]
        refine List.pairwise_cons.mpr ⟨?_, ih hs.2⟩
        intro x hx
        rcases (insertEntry_keys k v es x).mp hx with rfl | hx
        · exact hgt
        · exact hs.1 x hx

theorem lookup_insertEntry (k j : κ) (v : υ) (es : List (κ × υ)) :
    lookup j (insertEntry k v es) = if j = k then some v else lookup j es := by
  induction es with
  | nil => simp [insertEntry, lookup, eq_comm]
  | cons e es ih =>
      rcases lt_trichotomy k e.1 with hlt | rfl | hgt
      · rw [insertEntry_before k v e es hlt]
        simp only [lookup, eq_comm (a := k)]
      · rw [insertEntry_here]
        by_cases hj : j = e.1
        · simp [lookup, hj]
        · simp [lookup, hj, Ne.symm hj]
      · rw [insertEntry_after k v e es hgt]
        by_cases hj : j = k
        · subst hj
          simpa [lookup, ne_of_lt hgt] using ih
        · simp [lookup, ih, hj]

omit [LinearOrder κ] in
theorem accumEntries_keys (f : κ → υ → σ → υ × σ) (es : List (κ × υ)) (s : σ) :
    (accumEntries f es s).1.map Prod.fst = es.map Prod.fst := by
  induction es generalizing s with
  | nil => rfl
  | cons e es ih => simp [accumEntries, ih]

omit [LinearOrder κ] in
theorem accumEntries_invariant (f : κ → υ → σ → υ × σ) (I : σ → Prop)
    (hf : ∀ k v s, I s → I (f k v s).2) (es : List (κ × υ)) (s : σ) (hs : I s) :
    I (accumEntries f es s).2 := by
  induction es generalizing s with
  | nil => exact hs
  | cons e es ih => exact ih _ (hf e.1 e.2 s hs)

-- Under an invariant of the loop state, the state an entry meets satisfies it.
theorem lookup_accumEntries_of_invariant (f : κ → υ → σ → υ × σ) (I : σ → Prop)
    (hf : ∀ k v s, I s → I (f k v s).2) (k : κ) (es : List (κ × υ)) (s : σ) (hs : I s) :
    ∃ t, I t ∧ lookup k (accumEntries f es s).1 = (lookup k es).map fun v => (f k v t).1 := by
  induction es generalizing s with
  | nil => exact ⟨s, hs, rfl⟩
  | cons e es ih =>
      by_cases hk : e.1 = k
      · exact ⟨s, hs, by simp [accumEntries, lookup, hk]⟩
      · obtain ⟨t, hi, ht⟩ := ih (f e.1 e.2 s).2 (hf e.1 e.2 s hs)
        exact ⟨t, hi, by simp [accumEntries, lookup, hk, ht]⟩

def empty : OrdMap κ υ := ⟨[], by simp⟩

def find? (m : OrdMap κ υ) (k : κ) : Option υ := lookup k m.entries

def size (m : OrdMap κ υ) : Nat := m.entries.length

def keys (m : OrdMap κ υ) : List κ := m.entries.map Prod.fst

def insert (m : OrdMap κ υ) (k : κ) (v : υ) : OrdMap κ υ :=
  ⟨insertEntry k v m.entries, insertEntry_sorted k v m.entries m.sorted⟩

def erase (m : OrdMap κ υ) (k : κ) : OrdMap κ υ :=
  ⟨m.entries.filter fun e => e.1 ≠ k, m.sorted.sublist (List.filter_sublist.map Prod.fst)⟩

def accum (m : OrdMap κ υ) (f : κ → υ → σ → υ × σ) (s : σ) : OrdMap κ υ × σ :=
  (⟨(accumEntries f m.entries s).1, by rw [accumEntries_keys]; exact m.sorted⟩,
    (accumEntries f m.entries s).2)

def mapVals (m : OrdMap κ υ) (f : κ → υ → υ) : OrdMap κ υ :=
  ⟨m.entries.map fun e => (e.1, f e.1 e.2), by simpa [List.map_map, Function.comp_def] using m.sorted⟩

-- Writing through the pointer stored under a key.
def adjust (m : OrdMap κ υ) (k : κ) (f : υ → υ) : OrdMap κ υ :=
  m.mapVals fun j v => if j = k then f v else v

@[simp] theorem find?_empty (k : κ) : (empty : OrdMap κ υ).find? k = none := rfl

theorem find?_insert (m : OrdMap κ υ) (k j : κ) (v : υ) :
    (m.insert k v).find? j = if j = k then some v else m.find? j :=
  lookup_insertEntry k j v m.entries

theorem lookup_filter (k j : κ) (es : List (κ × υ)) :
    lookup j (es.filter fun e => e.1 ≠ k) = if j = k then none else lookup j es := by
  induction es with
  | nil => simp [lookup]
  | cons e es ih =>
      by_cases hk : e.1 = k
      · by_cases hj : j = k
        · simpa [hk, hj] using ih
        · simp only [hj, ite_false] at ih
          rw [List.filter_cons_of_neg (by simp [hk]), ih]
          simp [lookup, hk, hj, Ne.symm hj]
      · by_cases hj : e.1 = j
        · have hjk : j ≠ k := fun h => hk (hj.trans h)
          simp [hj, lookup, hjk]
        · simp only [ne_eq, hk, not_false_eq_true, decide_true, List.filter_cons_of_pos, lookup, hj,
            ite_false, ih]

theorem find?_erase (m : OrdMap κ υ) (k j : κ) :
    (m.erase k).find? j = if j = k then none else m.find? j :=
  lookup_filter k j m.entries

theorem lookup_map (f : κ → υ → υ) (k : κ) (es : List (κ × υ)) :
    lookup k (es.map fun e => (e.1, f e.1 e.2)) = (lookup k es).map (f k) := by
  induction es with
  | nil => rfl
  | cons e es ih =>
      by_cases hk : e.1 = k
      · simp [lookup, hk]
      · simpa [lookup, hk] using ih

theorem find?_mapVals (m : OrdMap κ υ) (f : κ → υ → υ) (k : κ) :
    (m.mapVals f).find? k = (m.find? k).map (f k) :=
  lookup_map f k m.entries

theorem find?_adjust (m : OrdMap κ υ) (k j : κ) (f : υ → υ) :
    (m.adjust k f).find? j = if j = k then (m.find? j).map f else m.find? j := by
  unfold adjust
  rw [find?_mapVals]
  by_cases hj : j = k <;> simp [hj]

theorem length_insertEntry_le (k : κ) (v : υ) (es : List (κ × υ)) :
    (insertEntry k v es).length ≤ es.length + 1 := by
  induction es with
  | nil => simp [insertEntry]
  | cons e es ih =>
      simp only [insertEntry]
      split_ifs <;> simp only [List.length_cons] at ih ⊢ <;> omega

theorem size_insert_le (m : OrdMap κ υ) (k : κ) (v : υ) : (m.insert k v).size ≤ m.size + 1 :=
  length_insertEntry_le k v m.entries

theorem length_insertEntry_of_absent {k : κ} (v : υ) {es : List (κ × υ)}
    (h : k ∉ es.map Prod.fst) : (insertEntry k v es).length = es.length + 1 := by
  induction es with
  | nil => rfl
  | cons e es ih =>
      have hne : k ≠ e.1 := fun hk => h (hk ▸ List.mem_cons_self)
      rw [insertEntry]
      split
      · rfl
      · simp only [List.length_cons, ih fun hmem => h (List.mem_cons_of_mem _ hmem)]

theorem size_erase_le (m : OrdMap κ υ) (k : κ) : (m.erase k).size ≤ m.size :=
  List.length_filter_le _ _

theorem find?_eq_none (m : OrdMap κ υ) (k : κ) : m.find? k = none ↔ k ∉ m.keys :=
  lookup_eq_none k m.entries

theorem size_insert_of_absent {m : OrdMap κ υ} {k : κ} (v : υ) (h : m.find? k = none) :
    (m.insert k v).size = m.size + 1 :=
  length_insertEntry_of_absent v ((find?_eq_none m k).mp h)

theorem length_filter_of_lookup {k : κ} {v : υ} {es : List (κ × υ)}
    (hs : (es.map Prod.fst).Pairwise (· < ·)) (h : lookup k es = some v) :
    (es.filter fun e => e.1 ≠ k).length + 1 = es.length := by
  induction es with
  | nil => simp [lookup] at h
  | cons e es ih =>
      simp only [List.map_cons, List.pairwise_cons] at hs
      by_cases hk : e.1 = k
      · have hrest : es.filter (fun e => e.1 ≠ k) = es := by
          apply List.filter_eq_self.mpr
          intro e' he'
          have hlt := hs.1 e'.1 (List.mem_map_of_mem he')
          exact decide_eq_true (hk ▸ ne_of_gt hlt)
        rw [List.filter_cons_of_neg (by simpa using hk), hrest, List.length_cons]
      · rw [List.filter_cons_of_pos (by simpa using hk), List.length_cons, List.length_cons,
          ih hs.2 (by simpa [lookup, hk] using h)]

theorem size_erase_of_present {m : OrdMap κ υ} {k : κ} {v : υ} (h : m.find? k = some v) :
    (m.erase k).size + 1 = m.size :=
  length_filter_of_lookup m.sorted h

theorem mem_entries_iff (m : OrdMap κ υ) (k : κ) (v : υ) :
    (k, v) ∈ m.entries ↔ m.find? k = some v :=
  ⟨lookup_of_mem m.sorted, mem_of_lookup⟩

-- Two maps with the same lookups have the same entries in the same order.
theorem ext_find? {m n : OrdMap κ υ} (h : ∀ k, m.find? k = n.find? k) : m = n := by
  have hm : ∀ es fs : List (κ × υ), (es.map Prod.fst).Pairwise (· < ·) →
      (fs.map Prod.fst).Pairwise (· < ·) → (∀ p, p ∈ es ↔ p ∈ fs) → es = fs := by
    intro es fs hes hfs hmem
    have lift : ∀ l : List (κ × υ), (l.map Prod.fst).Pairwise (· < ·) →
        l.Pairwise fun a b => a.1 < b.1 := fun l hl => List.pairwise_map.mp hl
    have hne : ∀ l : List (κ × υ), (l.map Prod.fst).Pairwise (· < ·) → l.Nodup := fun l hl =>
      (lift l hl).imp fun hab heq => absurd (congrArg Prod.fst heq) (ne_of_lt hab)
    exact ((List.perm_ext_iff_of_nodup (hne es hes) (hne fs hfs)).mpr hmem).eq_of_pairwise
      (fun a b _ _ hab hba => absurd hab (lt_asymm hba)) (lift es hes) (lift fs hfs)
  have he : m.entries = n.entries := hm _ _ m.sorted n.sorted fun p => by
    rw [mem_entries_iff, mem_entries_iff, h]
  cases m; cases n; simpa using he

theorem erase_of_absent {m : OrdMap κ υ} {k : κ} (h : m.find? k = none) : m.erase k = m := by
  apply ext_find?
  intro j
  rw [find?_erase]
  split
  · rename_i hj
    rw [hj, h]
  · rfl

-- Of a stored value only its image matters.
theorem adjust_const {m : OrdMap κ υ} {k : κ} {v : υ} (h : m.find? k = some v) (f : υ → υ) :
    (m.adjust k fun _ => f v) = m.adjust k f := by
  apply ext_find?
  intro j
  rw [find?_adjust, find?_adjust]
  by_cases hj : j = k
  · simp [hj, h]
  · simp [hj]

theorem adjust_id (m : OrdMap κ υ) (k : κ) : m.adjust k id = m := by
  apply ext_find?
  intro j
  rw [find?_adjust, Option.map_id, id_eq, ite_self]

theorem adjust_same {m : OrdMap κ υ} {k : κ} {v : υ} (h : m.find? k = some v) :
    (m.adjust k fun _ => v) = m := (adjust_const h id).trans (adjust_id m k)

theorem find?_accum (m : OrdMap κ υ) (f : κ → υ → σ → υ × σ) (I : σ → Prop)
    (hf : ∀ k v s, I s → I (f k v s).2) (k : κ) (s : σ) (hs : I s) :
    ∃ t, I t ∧ (m.accum f s).1.find? k = (m.find? k).map fun v => (f k v t).1 :=
  lookup_accumEntries_of_invariant f I hf k m.entries s hs

theorem accum_invariant (m : OrdMap κ υ) (f : κ → υ → σ → υ × σ) (I : σ → Prop)
    (hf : ∀ k v s, I s → I (f k v s).2) (s : σ) (hs : I s) : I (m.accum f s).2 :=
  accumEntries_invariant f I hf m.entries s hs

section Walk

-- The position of an iterator: the first key, and the one ++it moves to.
def first? (m : OrdMap κ υ) : Option κ := m.keys.head?

def next? (m : OrdMap κ υ) (k : κ) : Option κ := m.keys.find? fun j => k < j

variable {m : OrdMap κ υ} {done rest : List (κ × υ)} {k : κ} {v : υ}

theorem find?_of_split (h : m.entries = done ++ (k, v) :: rest) : m.find? k = some v :=
  (mem_entries_iff m k v).mp (by simp [h])

theorem split_keys (h : m.entries = done ++ (k, v) :: rest) :
    (∀ e ∈ done, e.1 < k) ∧ ∀ e ∈ rest, k < e.1 := by
  have hs := m.sorted
  rw [h, List.map_append, List.map_cons, List.pairwise_append, List.pairwise_cons] at hs
  obtain ⟨-, ⟨hrest, -⟩, hdone⟩ := hs
  exact ⟨fun e he => hdone e.1 (List.mem_map_of_mem he) k List.mem_cons_self,
    fun e he => hrest e.1 (List.mem_map_of_mem he)⟩

theorem next?_of_split (h : m.entries = done ++ (k, v) :: rest) :
    m.next? k = (rest.map Prod.fst).head? := by
  obtain ⟨hdone, hrest⟩ := split_keys h
  have hskip : (done.map Prod.fst).find? (fun j => decide (k < j)) = none := by
    simp only [List.find?_eq_none, List.mem_map, decide_eq_true_eq]
    rintro j ⟨e, he, rfl⟩
    exact not_lt_of_gt (hdone e he)
  unfold next? keys
  rw [h, List.map_append, List.map_cons, List.find?_append, hskip, Option.none_or,
    List.find?_cons_of_neg (by simp)]
  cases rest with
  | nil => rfl
  | cons e rest => exact List.find?_cons_of_pos (by simpa using hrest e List.mem_cons_self)

theorem adjust_of_split (h : m.entries = done ++ (k, v) :: rest) (f : υ → υ) :
    (m.adjust k f).entries = done ++ (k, f v) :: rest := by
  obtain ⟨hdone, hrest⟩ := split_keys h
  have hkeep : ∀ es : List (κ × υ), (∀ e ∈ es, e.1 ≠ k) →
      es.map (fun e => (e.1, if e.1 = k then f e.2 else e.2)) = es := by
    intro es hne
    conv_rhs => rw [← List.map_id es]
    exact List.map_congr_left fun e he => by simp [hne e he]
  unfold adjust mapVals
  simp only [h, List.map_append, List.map_cons, if_true]
  rw [hkeep done fun e he => ne_of_lt (hdone e he), hkeep rest fun e he => ne_of_gt (hrest e he)]

end Walk

section Rel

variable {υ' υ'' : Type*}

-- The same keys, with related values.
def Rel (R : κ → υ → υ' → Prop) (m : OrdMap κ υ) (n : OrdMap κ υ') : Prop :=
  ∀ k, Option.Rel (R k) (m.find? k) (n.find? k)

namespace Rel

variable {R : κ → υ → υ' → Prop} {m : OrdMap κ υ} {n : OrdMap κ υ'}

theorem find? (h : Rel R m n) {k : κ} {v : υ} (hk : m.find? k = some v) :
    ∃ v', n.find? k = some v' ∧ R k v v' := by
  have hr := h k
  rw [hk] at hr
  generalize n.find? k = y at hr
  cases hr with
  | some hr => exact ⟨_, rfl, hr⟩

-- Seen from the other side.
theorem find?_back (h : Rel R m n) {k : κ} {v' : υ'} (hk : n.find? k = some v') :
    ∃ v, m.find? k = some v ∧ R k v v' := by
  have hr := h k
  rw [hk] at hr
  generalize m.find? k = x at hr
  cases hr with
  | some hr => exact ⟨_, rfl, hr⟩

theorem find?_none (h : Rel R m n) {k : κ} (hk : m.find? k = none) : n.find? k = none := by
  have hr := h k
  rw [hk] at hr
  generalize n.find? k = y at hr
  cases hr with
  | none => rfl

theorem isSome_find? (h : Rel R m n) (k : κ) : (n.find? k).isSome = (m.find? k).isSome := by
  have hr := h k
  generalize m.find? k = x at hr
  generalize n.find? k = y at hr
  cases hr with
  | none => rfl
  | some hr => rfl

theorem mono {R' : κ → υ → υ' → Prop} (hR : ∀ k v v', R k v v' → R' k v v') (h : Rel R m n) :
    Rel R' m n := by
  intro k
  have hr := h k
  generalize m.find? k = x at hr
  generalize n.find? k = y at hr
  cases hr with
  | none => exact .none
  | some hr => exact .some (hR k _ _ hr)

theorem trans {R' : κ → υ' → υ'' → Prop} {R'' : κ → υ → υ'' → Prop} {p : OrdMap κ υ''}
    (h : Rel R m n) (h' : Rel R' n p) (hR : ∀ k a b c, R k a b → R' k b c → R'' k a c) :
    Rel R'' m p := by
  intro k
  have hr := h k
  have hr' := h' k
  generalize m.find? k = x at hr
  generalize n.find? k = y at hr hr'
  generalize p.find? k = z at hr'
  cases hr with
  | none => cases hr'; exact .none
  | some hr => cases hr' with | some hr' => exact .some (hR k _ _ _ hr hr')

theorem symm {R' : κ → υ' → υ → Prop} (hR : ∀ k a b, R k a b → R' k b a) (h : Rel R m n) :
    Rel R' n m := by
  intro k
  have hr := h k
  generalize m.find? k = x at hr
  generalize n.find? k = y at hr
  cases hr with
  | none => exact .none
  | some hr => exact .some (hR k _ _ hr)

theorem keys (h : Rel R m n) : n.keys = m.keys := by
  have hmem : ∀ k, k ∈ n.keys ↔ k ∈ m.keys := by
    intro k
    rw [← not_iff_not, ← find?_eq_none, ← find?_eq_none]
    have hback : Rel (fun k b a => R k a b) n m := h.symm fun _ _ _ hr => hr
    exact ⟨hback.find?_none, h.find?_none⟩
  have hnodup : ∀ l : List κ, l.Pairwise (· < ·) → l.Nodup := fun l hl => hl.imp ne_of_lt
  exact ((List.perm_ext_iff_of_nodup (hnodup _ n.sorted) (hnodup _ m.sorted)).mpr hmem).eq_of_pairwise
    (fun a b _ _ hab hba => absurd hab (lt_asymm hba)) n.sorted m.sorted

theorem size (h : Rel R m n) : n.size = m.size := by
  simpa [OrdMap.keys, OrdMap.size] using congrArg List.length h.keys

-- The operations keep related maps related.
theorem insert (h : Rel R m n) {k : κ} {v : υ} {v' : υ'} (hv : R k v v') :
    Rel R (m.insert k v) (n.insert k v') := by
  intro j
  rw [find?_insert, find?_insert]
  by_cases hj : j = k
  · rw [if_pos hj, if_pos hj]
    exact hj ▸ .some hv
  · rw [if_neg hj, if_neg hj]
    exact h j

theorem erase (h : Rel R m n) (k : κ) : Rel R (m.erase k) (n.erase k) := by
  intro j
  rw [find?_erase, find?_erase]
  by_cases hj : j = k
  · rw [if_pos hj, if_pos hj]
    exact .none
  · rw [if_neg hj, if_neg hj]
    exact h j

theorem adjust (h : Rel R m n) {k : κ} {f : υ → υ} {g : υ' → υ'}
    (hf : ∀ v v', R k v v' → R k (f v) (g v')) : Rel R (m.adjust k f) (n.adjust k g) := by
  intro j
  rw [find?_adjust, find?_adjust]
  have hr := h j
  by_cases hj : j = k
  · subst hj
    rw [if_pos rfl, if_pos rfl]
    generalize m.find? j = x at hr
    generalize n.find? j = y at hr
    cases hr with
    | none => exact .none
    | some hr => exact .some (hf _ _ hr)
  · rw [if_neg hj, if_neg hj]
    exact hr

end Rel

variable {S : κ → υ → υ → Prop}

theorem rel_refl (hS : ∀ k v, S k v v) (m : OrdMap κ υ) : Rel S m m := by
  intro k
  cases m.find? k with
  | none => exact .none
  | some v => exact .some (hS k v)

-- One map before and after an operation.
theorem rel_adjust (hS : ∀ k v, S k v v) (m : OrdMap κ υ) {k : κ} {f : υ → υ}
    (hf : ∀ v, S k v (f v)) : Rel S m (m.adjust k f) := by
  intro j
  rw [find?_adjust]
  by_cases hj : j = k
  · subst hj
    rw [if_pos rfl]
    cases m.find? j with
    | none => exact .none
    | some v => exact .some (hf v)
  · rw [if_neg hj]
    exact rel_refl hS m j

theorem rel_mapVals (m : OrdMap κ υ) {f : κ → υ → υ} (hf : ∀ k v, S k v (f k v)) :
    Rel S m (m.mapVals f) := by
  intro k
  rw [find?_mapVals]
  cases m.find? k with
  | none => exact .none
  | some v => exact .some (hf k v)

theorem rel_accum (m : OrdMap κ υ) {f : κ → υ → σ → υ × σ} (hf : ∀ k v s, S k v (f k v s).1)
    (s : σ) : Rel S m (m.accum f s).1 := by
  intro k
  obtain ⟨t, -, ht⟩ := find?_accum m f (fun _ => True) (fun _ _ _ _ => trivial) k s trivial
  rw [ht]
  cases m.find? k with
  | none => exact .none
  | some v => exact .some (hf k v t)

end Rel

end OrdMap

end WebFort.Library
