import WebFort.Library.Words

namespace WebFort.Library.Decimal

def isDigit (b : UInt8) : Bool := decide (48 ≤ b) && decide (b ≤ 57)

def value (ds : Bytes) : Nat := ds.foldl (fun n b => 10 * n + (b.toNat - 48)) 0

-- The factor of an optional sign and what follows it.
def sign : Bytes → Int × Bytes
  | [] => (1, [])
  | b :: v => if b = 45 then (-1, v) else if b = 43 then (1, v) else (1, b :: v)

-- The number a text begins with.
def scan (v : Bytes) : Option Int :=
  let digits := (sign v).2.takeWhile isDigit
  if digits = [] then none else some ((sign v).1 * value digits)

-- The number a text is.
def number? (v : Bytes) : Option Int := if (sign v).2.all isDigit then scan v else none

theorem sign_append {v : Bytes} (hv : v ≠ []) (w : Bytes) :
    sign (v ++ w) = ((sign v).1, (sign v).2 ++ w) := by
  cases v with
  | nil => exact absurd rfl hv
  | cons b v =>
      simp only [sign, List.cons_append]
      split
      · rfl
      · split <;> rfl

theorem takeWhile_digits {ds w : Bytes} (hds : ds.all isDigit = true)
    (hw : ∀ b ∈ w.head?, isDigit b = false) : (ds ++ w).takeWhile isDigit = ds := by
  rw [List.takeWhile_append_of_pos (List.all_eq_true.mp hds)]
  cases w with
  | nil => simp
  | cons b w =>
      have hb := hw b rfl
      simp [hb]

-- What follows a number does not change it unless it begins with a digit.
theorem scan_append {v w : Bytes} {n : Int} (hv : number? v = some n)
    (hw : ∀ b ∈ w.head?, isDigit b = false) : scan (v ++ w) = some n := by
  unfold number? at hv
  split at hv
  case isFalse => cases hv
  case isTrue hall =>
      have hne : v ≠ [] := by
        rintro rfl
        simp [scan, sign] at hv
      have htake := takeWhile_digits hall hw
      have hself : (sign v).2.takeWhile isDigit = (sign v).2 := by
        simpa using takeWhile_digits hall (w := []) (by simp)
      simp only [scan, hself] at hv
      simp only [scan, sign_append hne, htake]
      exact hv

-- A number begins with a sign or a digit.
theorem head_of_number {v : Bytes} {n : Int} (hv : number? v = some n) :
    ∃ b w, v = b :: w ∧ (b = 45 ∨ b = 43 ∨ isDigit b = true) := by
  unfold number? at hv
  split at hv
  case isFalse => cases hv
  case isTrue hall =>
      cases v with
      | nil => simp [scan, sign] at hv
      | cons b w =>
          refine ⟨b, w, rfl, ?_⟩
          by_cases hminus : b = 45
          · exact Or.inl hminus
          · by_cases hplus : b = 43
            · exact Or.inr (Or.inl hplus)
            · simp only [sign, if_neg hminus, if_neg hplus, List.all_cons, Bool.and_eq_true] at hall
              exact Or.inr (Or.inr hall.1)

def digits (n : Nat) : Bytes := (Nat.toDigits 10 n).map fun c => UInt8.ofNat c.toNat

theorem digits_of_lt {d : Nat} (h : d < 10) : digits d = [UInt8.ofNat (48 + d)] := by
  rw [digits, Nat.toDigits_of_lt_base h, List.map_singleton, Nat.toNat_digitChar_of_lt_ten h]

theorem digits_append {n d : Nat} (hn : 0 < n) (hd : d < 10) :
    digits (10 * n + d) = digits n ++ [UInt8.ofNat (48 + d)] := by
  rw [← digits_of_lt hd, digits, ← Nat.toDigits_append_toDigits (by decide) hn hd,
    List.map_append]
  rfl

theorem digit_toNat {d : Nat} (h : d < 10) : (UInt8.ofNat (48 + d)).toNat = 48 + d := by
  rw [UInt8.toNat_ofNat']
  omega

theorem digits_ne_nil (n : Nat) : digits n ≠ [] := by simp [digits]

theorem digits_all (n : Nat) : (digits n).all isDigit = true := by
  have hdigit : ∀ {d : Nat}, d < 10 → isDigit (UInt8.ofNat (48 + d)) = true := by
    intro d hd
    have hnat := digit_toNat hd
    simp only [isDigit, Bool.and_eq_true, decide_eq_true_eq, UInt8.le_iff_toNat_le, hnat]
    exact ⟨by simp, by simp; omega⟩
  induction n using Nat.base_induction 10 (by decide) with
  | single d hd =>
      rw [digits_of_lt hd]
      simpa using hdigit hd
  | digit n d hd hn ih =>
      rw [digits_append hn hd, List.all_append, ih]
      simpa using hdigit hd

theorem value_digits (n : Nat) : value (digits n) = n := by
  induction n using Nat.base_induction 10 (by decide) with
  | single d hd =>
      rw [digits_of_lt hd]
      simp only [value, List.foldl_cons, List.foldl_nil, digit_toNat hd]
      omega
  | digit n d hd hn ih =>
      unfold value at ih ⊢
      rw [digits_append hn hd, List.foldl_append, ih]
      simp only [List.foldl_cons, List.foldl_nil, digit_toNat hd]
      omega

theorem digits_injective : Function.Injective digits :=
  Function.LeftInverse.injective value_digits

-- Only zero is written with a leading zero.
theorem head_digits {n : Nat} (hn : 0 < n) : (digits n).head? ≠ some 48 := by
  induction n using Nat.base_induction 10 (by decide) with
  | single d hd =>
      rw [digits_of_lt hd, List.head?_cons]
      intro h
      have hnat := congrArg UInt8.toNat (Option.some.inj h)
      rw [digit_toNat hd] at hnat
      have : 48 + d = 48 := hnat
      omega
  | digit n d hd hpos ih =>
      rw [digits_append hpos hd, List.head?_append, Option.or_of_isSome]
      · exact ih hpos
      · exact List.isSome_head?.mpr (digits_ne_nil n)

-- With the sign of a negative number
def signed (n : Int) : Bytes := if n < 0 then 45 :: digits n.natAbs else digits n.natAbs

theorem length_digits_le {n k : Nat} (hk : 0 < k) : (digits n).length ≤ k ↔ n < 10 ^ k := by
  rw [digits, List.length_map]
  exact Nat.length_toDigits_le_iff (by decide) hk

end WebFort.Library.Decimal
