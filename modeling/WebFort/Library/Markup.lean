import Mathlib.Data.List.Basic

namespace WebFort.Library.Markup

-- What the HTML parser makes of a string that is set as the content of an
-- element such as div, on code units, as far as the string is character data.

-- The character references. A reference is given by what follows its
-- ampersand: how many units belong to it and the units it stands for.
structure Refs where
  ref : List Nat → Option (Nat × List Nat)
  short : ∀ rest n stands, ref rest = some (n, stands) → stands.length ≤ n ∧ n ≤ rest.length
  -- Letters, digits, '#' and ';' make a reference, so no '<' is in one.
  noTag : ∀ rest n stands, ref rest = some (n, stands) → 60 ∉ rest.take n
  -- And a space ends it.
  space : ∀ s t, ref (s ++ 32 :: t) = ref s

def isLetter (c : Nat) : Bool := (65 ≤ c && c ≤ 90) || (97 ≤ c && c ≤ 122)

-- The tag open state: '<' begins a tag, a comment or a declaration before a
-- letter, '!' and '?', and before '/' unless that is the last unit.
def opensMarkup : List Nat → Bool
  | [] => false
  | c :: rest => isLetter c || c = 33 || c = 63 || (c = 47 && rest ≠ [])

def normalizeNewlines : List Nat → List Nat
  | [] => []
  | 13 :: 10 :: rest => 10 :: normalizeNewlines rest
  | c :: rest => (if c = 13 then 10 else c) :: normalizeNewlines rest

-- The text of the element, none when the data state is left for a tag or a
-- comment. A stray end tag and an empty one are none as well, although a
-- browser only drops them and keeps the text around. The first argument counts
-- the units of a reference still to skip.
def textFrom (refs : Refs) : Nat → List Nat → Option (List Nat)
  | _, [] => some []
  | n + 1, _ :: rest => textFrom refs n rest
  | 0, c :: rest =>
      if c = 0 then textFrom refs 0 rest
      else if c = 60 ∧ opensMarkup rest then none
      else if c = 38 then
        match refs.ref rest with
        | none => (textFrom refs 0 rest).map (38 :: ·)
        | some (n, stands) => (textFrom refs n rest).map (stands ++ ·)
      else (textFrom refs 0 rest).map (c :: ·)

def innerHTML (refs : Refs) (markup : List Nat) : Option (List Nat) :=
  textFrom refs 0 (normalizeNewlines markup)

-- No unit begins a tag or a comment.
def CharacterData : List Nat → Prop
  | [] => True
  | c :: rest => ¬(c = 60 ∧ opensMarkup rest) ∧ CharacterData rest

-- And every unit stands for itself.
def Plain (refs : Refs) : List Nat → Prop
  | [] => True
  | c :: rest =>
      c ≠ 0 ∧ c ≠ 13 ∧ ¬(c = 60 ∧ opensMarkup rest) ∧ (c = 38 → refs.ref rest = none) ∧
        Plain refs rest

def decidableCharacterData : (s : List Nat) → Decidable (CharacterData s)
  | [] => .isTrue trivial
  | c :: rest =>
      have := decidableCharacterData rest
      inferInstanceAs (Decidable (¬(c = 60 ∧ opensMarkup rest) ∧ CharacterData rest))

def decidablePlain (refs : Refs) : (s : List Nat) → Decidable (Plain refs s)
  | [] => .isTrue trivial
  | c :: rest =>
      have := decidablePlain refs rest
      inferInstanceAs (Decidable (c ≠ 0 ∧ c ≠ 13 ∧ ¬(c = 60 ∧ opensMarkup rest) ∧
        (c = 38 → refs.ref rest = none) ∧ Plain refs rest))

instance (s : List Nat) : Decidable (CharacterData s) := decidableCharacterData s

instance (refs : Refs) (s : List Nat) : Decidable (Plain refs s) := decidablePlain refs s

section Newlines

theorem normalizeNewlines_cons {c : Nat} {s : List Nat} (h : c = 13 → s.head? ≠ some 10) :
    normalizeNewlines (c :: s) = (if c = 13 then 10 else c) :: normalizeNewlines s := by
  rw [normalizeNewlines]
  rintro rest rfl rfl
  exact h rfl rfl

theorem normalizeNewlines_length (s : List Nat) : (normalizeNewlines s).length ≤ s.length := by
  fun_induction normalizeNewlines s with
  | case1 => exact Nat.le_refl 0
  | case2 rest ih =>
      simp only [List.length_cons]
      omega
  | case3 c rest hne ih =>
      simp only [List.length_cons]
      omega

theorem normalizeNewlines_no_return (s : List Nat) : 13 ∉ normalizeNewlines s := by
  fun_induction normalizeNewlines s with
  | case1 => exact List.not_mem_nil
  | case2 rest ih => simpa using ih
  | case3 c rest hne ih =>
      rw [List.mem_cons, not_or]
      refine ⟨?_, ih⟩
      split <;> omega

theorem normalizeNewlines_self {s : List Nat} (h : 13 ∉ s) : normalizeNewlines s = s := by
  induction s with
  | nil => rfl
  | cons c s ih =>
      have hc : c ≠ 13 := fun hc => h (hc ▸ List.mem_cons_self)
      rw [normalizeNewlines_cons fun hc' => absurd hc' hc, if_neg hc,
        ih fun hs => h (List.mem_cons_of_mem c hs)]

theorem normalizeNewlines_eq_nil {s : List Nat} : normalizeNewlines s = [] ↔ s = [] := by
  fun_cases normalizeNewlines s with
  | case1 => simp
  | case2 rest => simp
  | case3 c rest hne => simp

-- No line ending opens markup, and none keeps any other unit from it.
theorem opensMarkup_normalizeNewlines (s : List Nat) :
    opensMarkup (normalizeNewlines s) = opensMarkup s := by
  fun_cases normalizeNewlines s with
  | case1 => rfl
  | case2 rest => simp [opensMarkup, isLetter]
  | case3 c rest hne =>
      by_cases hc : c = 13
      · subst hc
        simp [opensMarkup, isLetter]
      · simp [opensMarkup, if_neg hc, normalizeNewlines_eq_nil]

theorem characterData_normalizeNewlines (s : List Nat) :
    CharacterData (normalizeNewlines s) ↔ CharacterData s := by
  fun_induction normalizeNewlines s with
  | case1 => exact Iff.rfl
  | case2 rest ih => simp [CharacterData, ih]
  | case3 c rest hne ih =>
      by_cases hc : c = 13
      · subst hc
        simp [CharacterData, ih]
      · simp only [CharacterData, if_neg hc, opensMarkup_normalizeNewlines, ih]

end Newlines

section Text

variable {refs : Refs}

-- Text never grows, and what is skipped is lost.
theorem textFrom_length {n : Nat} {s t : List Nat} (hn : n ≤ s.length)
    (h : textFrom refs n s = some t) : t.length + n ≤ s.length := by
  fun_induction textFrom refs n s generalizing t with
  | case1 n =>
      obtain rfl := Option.some.inj h
      exact Nat.le_of_eq (by simpa using hn)
  | case2 n c rest ih =>
      have := ih (by simpa using hn) h
      simp only [List.length_cons]
      omega
  | case3 rest ih =>
      have := ih (Nat.zero_le _) h
      simp only [List.length_cons]
      omega
  | case4 c rest hc hopen => cases h
  | case5 rest href _ _ ih =>
      obtain ⟨t', ht', rfl⟩ := Option.map_eq_some_iff.mp h
      have := ih (Nat.zero_le _) ht'
      simp only [List.length_cons]
      omega
  | case6 rest n stands href _ _ ih =>
      obtain ⟨t', ht', rfl⟩ := Option.map_eq_some_iff.mp h
      obtain ⟨hstands, hrest⟩ := refs.short _ _ _ href
      have := ih hrest ht'
      simp only [List.length_cons, List.length_append]
      omega
  | case7 c rest _ _ _ ih =>
      obtain ⟨t', ht', rfl⟩ := Option.map_eq_some_iff.mp h
      have := ih (Nat.zero_le _) ht'
      simp only [List.length_cons]
      omega

theorem textFrom_full {s t : List Nat} (h : textFrom refs 0 s = some t)
    (hlen : s.length ≤ t.length) (hret : 13 ∉ s) : t = s ∧ Plain refs s := by
  induction s generalizing t with
  | nil => exact ⟨(Option.some.inj h).symm, trivial⟩
  | cons c rest ih =>
      have hc : c ≠ 13 := fun hc => hret (hc ▸ List.mem_cons_self)
      have hrest : 13 ∉ rest := fun hr => hret (List.mem_cons_of_mem c hr)
      simp only [List.length_cons] at hlen
      rw [textFrom] at h
      split at h
      · have := textFrom_length (Nat.zero_le _) h
        omega
      · rename_i hnul
        split at h
        · cases h
        · rename_i hopen
          -- Any other unit is passed on, in front of a shorter full text.
          have hkept : (textFrom refs 0 rest).map (c :: ·) = some t →
              (c = 38 → refs.ref rest = none) → t = c :: rest ∧ Plain refs (c :: rest) := by
            intro hmap href
            obtain ⟨t', ht', rfl⟩ := Option.map_eq_some_iff.mp hmap
            obtain ⟨rfl, hplain⟩ := ih ht' (by simpa using hlen) hrest
            exact ⟨rfl, hnul, hc, hopen, href, hplain⟩
          split at h
          · rename_i hamp
            subst hamp
            split at h
            · rename_i href
              exact hkept h fun _ => href
            · rename_i n stands href
              obtain ⟨t', ht', rfl⟩ := Option.map_eq_some_iff.mp h
              obtain ⟨hstands, hn⟩ := refs.short _ _ _ href
              have := textFrom_length hn ht'
              simp only [List.length_append] at hlen
              omega
          · rename_i hamp
            exact hkept h fun h38 => absurd h38 hamp

theorem Plain.no_return {s : List Nat} (h : Plain refs s) : 13 ∉ s := by
  induction s with
  | nil => exact List.not_mem_nil
  | cons c s ih =>
      obtain ⟨-, hc, -, -, hs⟩ := h
      rintro hmem
      rcases List.mem_cons.mp hmem with rfl | hmem
      · exact hc rfl
      · exact ih hs hmem

theorem Plain.textFrom {s : List Nat} (h : Plain refs s) : textFrom refs 0 s = some s := by
  induction s with
  | nil => rfl
  | cons c s ih =>
      obtain ⟨hnul, -, hopen, href, hs⟩ := h
      rw [Markup.textFrom, if_neg hnul, if_neg hopen, ih hs]
      split
      · rename_i hamp
        rw [href hamp, hamp]
        rfl
      · rfl

-- The element shows the very string it was given.
theorem innerHTML_self_iff {markup : List Nat} :
    innerHTML refs markup = some markup ↔ Plain refs markup := by
  unfold innerHTML
  constructor
  · intro h
    have htext := textFrom_length (Nat.zero_le _) h
    have hnorm := normalizeNewlines_length markup
    obtain ⟨heq, hplain⟩ := textFrom_full h (by omega) (normalizeNewlines_no_return markup)
    rwa [← heq] at hplain
  · intro h
    rw [normalizeNewlines_self h.no_return]
    exact h.textFrom

theorem characterData_drop {s : List Nat} {n : Nat} (h : 60 ∉ s.take n) :
    CharacterData (s.drop n) ↔ CharacterData s := by
  induction n generalizing s with
  | zero => rw [List.drop_zero]
  | succ n ih =>
      cases s with
      | nil => rfl
      | cons c s =>
          rw [List.take_succ_cons, List.mem_cons, not_or] at h
          rw [List.drop_succ_cons, ih h.2, CharacterData]
          simp [Ne.symm h.1]

theorem textFrom_isSome_iff (n : Nat) (s : List Nat) :
    (textFrom refs n s).isSome = true ↔ CharacterData (s.drop n) := by
  fun_induction textFrom refs n s with
  | case1 n => simp [CharacterData]
  | case2 n c rest ih => exact ih
  | case3 rest ih => simpa [CharacterData] using ih
  | case4 c rest hc hopen => simp [CharacterData, hopen]
  | case5 rest href hc hopen ih => simpa [CharacterData] using ih
  | case6 rest n stands href hc hopen ih =>
      simpa [CharacterData, characterData_drop (refs.noTag _ _ _ href)] using ih
  | case7 c rest hc hopen hamp ih => simpa [CharacterData, hopen] using ih

-- The element holds text alone.
theorem innerHTML_isSome_iff (markup : List Nat) :
    (innerHTML refs markup).isSome = true ↔ CharacterData markup := by
  unfold innerHTML
  rw [textFrom_isSome_iff, List.drop_zero, characterData_normalizeNewlines]

end Text

section Space

variable {refs : Refs}

theorem opensMarkup_space (s t : List Nat) :
    opensMarkup (s ++ 32 :: t) = opensMarkup (s ++ [32]) := by
  cases s with
  | nil => rfl
  | cons c s => simp [opensMarkup]

-- What follows a space has no part in what stands before it.
theorem plain_append_space (s t : List Nat) :
    Plain refs (s ++ 32 :: t) ↔ Plain refs (s ++ [32]) ∧ Plain refs t := by
  induction s with
  | nil => simp [Plain]
  | cons c s ih =>
      simp only [List.cons_append, Plain, opensMarkup_space s t, refs.space s t, ih,
        refs.space s []]
      tauto

theorem characterData_append_space (s t : List Nat) :
    CharacterData (s ++ 32 :: t) ↔ CharacterData (s ++ [32]) ∧ CharacterData t := by
  induction s with
  | nil => simp [CharacterData]
  | cons c s ih =>
      simp only [List.cons_append, CharacterData, opensMarkup_space s t, ih]
      tauto

theorem plain_of_harmless {s : List Nat} (h : ∀ c ∈ s, c ≠ 0 ∧ c ≠ 13 ∧ c ≠ 60 ∧ c ≠ 38) :
    Plain refs s := by
  induction s with
  | nil => trivial
  | cons c s ih =>
      obtain ⟨hnul, hret, hlt, hamp⟩ := h c List.mem_cons_self
      exact ⟨hnul, hret, fun ho => hlt ho.1, fun ha => absurd ha hamp,
        ih fun d hd => h d (List.mem_cons_of_mem c hd)⟩

theorem characterData_of_no_lt {s : List Nat} (h : 60 ∉ s) : CharacterData s := by
  induction s with
  | nil => trivial
  | cons c s ih =>
      rw [List.mem_cons, not_or] at h
      exact ⟨fun ho => h.1 ho.1.symm, ih h.2⟩

end Space

end WebFort.Library.Markup
