import WebFort.Library.Percent.Encode

namespace WebFort.Library.Percent

-- Strings as UTF-16 code units, with or without halves that stand alone.

def isLead (c : Nat) : Bool := 0xD800 ≤ c && c < 0xDC00

def isTrail (c : Nat) : Bool := 0xDC00 ≤ c && c < 0xE000

theorem surrogate_range {c : Nat} (h : isLead c = true ∨ isTrail c = true) :
    0xD800 ≤ c ∧ c < 0xE000 := by
  simp only [isLead, isTrail, Bool.and_eq_true, decide_eq_true_eq] at h
  omega

-- The characters of a string; none where a half stands alone.
def scalars : List Nat → Option (List Char)
  | [] => some []
  | c :: rest =>
      if isLead c then
        match rest with
        | [] => none
        | d :: rest =>
            if isTrail d then
              (scalars rest).map (Char.ofNat (0x10000 + (c - 0xD800) * 1024 + (d - 0xDC00)) :: ·)
            else none
      else if isTrail c then none
      else (scalars rest).map (Char.ofNat c :: ·)

theorem scalars_plain {c : Nat} (hlead : isLead c = false) (htrail : isTrail c = false)
    (rest : List Nat) : scalars (c :: rest) = (scalars rest).map (Char.ofNat c :: ·) := by
  rw [scalars.eq_def]
  simp only [hlead, htrail, Bool.false_eq_true, if_false]

theorem scalars_pair {c d : Nat} (hlead : isLead c = true) (htrail : isTrail d = true)
    (rest : List Nat) : scalars (c :: d :: rest) =
      (scalars rest).map (Char.ofNat (0x10000 + (c - 0xD800) * 1024 + (d - 0xDC00)) :: ·) := by
  rw [scalars.eq_def]
  simp only [hlead, htrail, if_true]

theorem scalars_utf16 (c : Char) (rest : List Nat) :
    scalars (utf16 c.toNat ++ rest) = (scalars rest).map (c :: ·) := by
  have hscalar := scalar_bounds c
  unfold utf16
  split
  case isTrue h =>
      have hlead : isLead c.toNat = false := by
        refine Bool.eq_false_iff.mpr fun hl => ?_
        have := surrogate_range (Or.inl hl)
        omega
      have htrail : isTrail c.toNat = false := by
        refine Bool.eq_false_iff.mpr fun ht => ?_
        have := surrogate_range (Or.inr ht)
        omega
      rw [List.singleton_append, scalars_plain hlead htrail, Char.ofNat_toNat]
  case isFalse h =>
      have hlead : isLead (0xD800 + (c.toNat - 0x10000) / 1024) = true := by
        simp only [isLead, Bool.and_eq_true, decide_eq_true_eq]
        omega
      have htrail : isTrail (0xDC00 + (c.toNat - 0x10000) % 1024) = true := by
        simp only [isTrail, Bool.and_eq_true, decide_eq_true_eq]
        omega
      have hvalue : 0x10000 + (0xD800 + (c.toNat - 0x10000) / 1024 - 0xD800) * 1024 +
          (0xDC00 + (c.toNat - 0x10000) % 1024 - 0xDC00) = c.toNat := by omega
      rw [List.cons_append, List.singleton_append, scalars_pair hlead htrail, hvalue,
        Char.ofNat_toNat]

theorem scalars_codeUnits (s : List Char) : scalars (codeUnits s) = some s := by
  induction s with
  | nil => rfl
  | cons c s ih =>
      show scalars (utf16 c.toNat ++ codeUnits s) = _
      rw [scalars_utf16, ih]
      rfl

theorem codeUnits_lt (s : List Char) : ∀ u ∈ codeUnits s, u < 0x10000 := by
  intro u hu
  obtain ⟨c, -, hu⟩ := List.mem_flatMap.mp hu
  have hscalar := scalar_bounds c
  unfold utf16 at hu
  split at hu
  · obtain rfl := List.mem_singleton.mp hu
    assumption
  · simp only [List.mem_cons, List.not_mem_nil, or_false] at hu
    omega

-- A byte of an escaped text is a letter, a digit, a percent sign or one of a
-- few marks.
theorem encode_query (s : List Char) : ∀ b ∈ encode s, b ≠ 38 ∧ b ≠ 61 := by
  intro b hb
  obtain ⟨c, -, hb⟩ := List.mem_flatMap.mp hb
  unfold encodeChar at hb
  split at hb
  case isTrue h =>
      have hmark : c.toNat < 256 ∧ c.toNat ≠ 38 ∧ c.toNat ≠ 61 := by
        simp only [isUnreserved, Bool.or_eq_true, Bool.and_eq_true, decide_eq_true_eq, List.mem_cons,
          List.not_mem_nil, or_false] at h
        omega
      rw [List.mem_singleton.mp hb]
      simp only [ne_eq, ← UInt8.toNat_inj, toNat_ofNat hmark.1]
      exact hmark.2
  case isFalse =>
      obtain ⟨o, -, hb⟩ := List.mem_flatMap.mp hb
      have ho := o.toNat_lt
      have hhex : ∀ n < 16, hexChar n ≠ 38 ∧ hexChar n ≠ 61 := by decide
      simp only [escape, List.mem_cons, List.not_mem_nil, or_false] at hb
      rcases hb with rfl | rfl | rfl
      · decide
      · exact hhex _ (by omega)
      · exact hhex _ (by omega)

end WebFort.Library.Percent
