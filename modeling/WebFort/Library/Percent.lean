import Mathlib.Data.List.Basic

namespace WebFort.Library.Percent

-- decodeURIComponent of ECMAScript on the code units of a string; none is
-- the URIError.

def hexDigit (c : Nat) : Option Nat :=
  if 48 ≤ c ∧ c ≤ 57 then some (c - 48)
  else if 65 ≤ c ∧ c ≤ 70 then some (c - 55)
  else if 97 ≤ c ∧ c ≤ 102 then some (c - 87)
  else none

def hexOctet (hi lo : Nat) : Option Nat :=
  match hexDigit hi, hexDigit lo with
  | some h, some l => some (16 * h + l)
  | _, _ => none

-- How many octets a leading octet announces, itself included.
def octetCount (b : Nat) : Option Nat :=
  if b < 0x80 then some 1
  else if b < 0xC0 then none
  else if b < 0xE0 then some 2
  else if b < 0xF0 then some 3
  else if b < 0xF8 then some 4
  else none

def isTail (b : Nat) : Bool := 0x80 ≤ b && b < 0xC0

-- The code point of a valid UTF-8 sequence: no overlong form, no surrogate.
def codePoint : List Nat → Option Nat
  | [a] => some a
  | [a, b] =>
      let v := a % 32 * 64 + b % 64
      if isTail b ∧ 0x80 ≤ v then some v else none
  | [a, b, c] =>
      let v := a % 16 * 4096 + b % 64 * 64 + c % 64
      if isTail b ∧ isTail c ∧ 0x800 ≤ v ∧ ¬(0xD800 ≤ v ∧ v ≤ 0xDFFF) then some v else none
  | [a, b, c, d] =>
      let v := a % 8 * 262144 + b % 64 * 4096 + c % 64 * 64 + d % 64
      if isTail b ∧ isTail c ∧ isTail d ∧ 0x10000 ≤ v ∧ v ≤ 0x10FFFF then some v else none
  | _ => none

def utf16 (v : Nat) : List Nat :=
  if v < 0x10000 then [v] else [0xD800 + (v - 0x10000) / 1024, 0xDC00 + (v - 0x10000) % 1024]

-- Of a sequence that is still being read: how many octets are missing, and
-- those read.
structure Pending where
  missing : Nat
  octets : List Nat

-- One more octet: the code units it completes, and what is pending then.
def octet (pending : Pending) (b : Nat) : Option (List Nat × Pending) :=
  match pending.missing with
  | 0 =>
      match octetCount b with
      | none => none
      | some 1 => some ([b], ⟨0, []⟩)
      | some n => some ([], ⟨n - 1, [b]⟩)
  | 1 => (codePoint (pending.octets ++ [b])).map fun v => (utf16 v, ⟨0, []⟩)
  | n + 2 => some ([], ⟨n + 1, pending.octets ++ [b]⟩)

-- Inside a sequence only escapes may follow.
def decodeFrom : Pending → List Nat → Option (List Nat)
  | pending, [] => if pending.missing = 0 then some [] else none
  | pending, 37 :: hi :: lo :: rest =>
      match hexOctet hi lo with
      | none => none
      | some b =>
          match octet pending b with
          | none => none
          | some (units, pending) => (decodeFrom pending rest).map (units ++ ·)
  | pending, c :: rest =>
      if c = 37 ∨ pending.missing ≠ 0 then none else (decodeFrom pending rest).map (c :: ·)

def decode (s : List Nat) : Option (List Nat) := decodeFrom ⟨0, []⟩ s

-- Text without a percent sign stands for itself.
theorem decode_of_no_percent {s : List Nat} (h : 37 ∉ s) : decode s = some s := by
  unfold decode
  induction s with
  | nil => rfl
  | cons c s ih =>
      have hc : c ≠ 37 := fun hc => h (hc ▸ List.mem_cons_self)
      rw [decodeFrom]
      · simp only [hc, ne_eq, not_true_eq_false, or_self, if_false]
        rw [ih fun hs => h (List.mem_cons_of_mem c hs)]
        rfl
      · exact fun _ _ _ hc' => absurd hc' hc

theorem decodeFrom_plain {pending : Pending} {c : Nat} (hc : c ≠ 37) (rest : List Nat) :
    decodeFrom pending (c :: rest) =
      if pending.missing ≠ 0 then none else (decodeFrom pending rest).map (c :: ·) := by
  rw [decodeFrom]
  · simp only [hc, false_or]
  · exact fun _ _ _ h => absurd h hc

theorem decodeFrom_escape (pending : Pending) (hi lo : Nat) (rest : List Nat) :
    decodeFrom pending (37 :: hi :: lo :: rest) =
      (hexOctet hi lo).bind fun b => (octet pending b).bind fun r =>
        (decodeFrom r.2 rest).map (r.1 ++ ·) := by
  rw [decodeFrom]
  cases hexOctet hi lo with
  | none => rfl
  | some b =>
      simp only [Option.bind_some]
      cases octet pending b with
      | none => rfl
      | some r => rfl

-- The octets of a finished sequence are not looked at again.
theorem decodeFrom_ready {pending : Pending} (hm : pending.missing = 0) (s : List Nat) :
    decodeFrom pending s = decode s := by
  obtain ⟨missing, octets⟩ := pending
  obtain rfl : missing = 0 := hm
  unfold decode
  induction s with
  | nil => rfl
  | cons c s ih =>
      by_cases hc : c = 37
      · subst hc
        match s with
        | [] => rfl
        | [_] => rfl
        | hi :: lo :: rest =>
            rw [decodeFrom_escape, decodeFrom_escape]
            rfl
      · rw [decodeFrom_plain hc, decodeFrom_plain hc, ih]

-- What decodes on its own decodes so in front of anything.
theorem decodeFrom_append {pending : Pending} {a u : List Nat}
    (h : decodeFrom pending a = some u) (b : List Nat) :
    decodeFrom pending (a ++ b) = (decode b).map (u ++ ·) := by
  fun_induction decodeFrom pending a generalizing u with
  | case1 pending hm =>
      obtain rfl := Option.some.inj h
      rw [List.nil_append, decodeFrom_ready hm]
      simp
  | case2 => cases h
  | case3 => cases h
  | case4 => cases h
  | case5 pending hi lo rest b hhex units next hoctet ih =>
      obtain ⟨v, hv, rfl⟩ := Option.map_eq_some_iff.mp h
      have hrest := ih hv
      rw [List.cons_append, List.cons_append, List.cons_append, decodeFrom_escape, hhex,
        Option.bind_some, hoctet, Option.bind_some, hrest, Option.map_map]
      simp only [Function.comp_def, List.append_assoc]
  | case6 => cases h
  | case7 pending c rest _ hplain ih =>
      obtain ⟨hc, hm⟩ := not_or.mp hplain
      obtain ⟨v, hv, rfl⟩ := Option.map_eq_some_iff.mp h
      rw [List.cons_append, decodeFrom_plain hc, if_neg hm, ih hv, Option.map_map]
      rfl

theorem decode_append {a u : List Nat} (h : decode a = some u) (b : List Nat) :
    decode (a ++ b) = (decode b).map (u ++ ·) := decodeFrom_append h b

theorem utf16_ne_nil (v : Nat) : utf16 v ≠ [] := by
  unfold utf16
  split <;> simp

theorem octet_pending {pending next : Pending} {b : Nat} (h : octet pending b = some ([], next)) :
    next.missing ≠ 0 := by
  unfold octet at h
  split at h
  · split at h
    · cases h
    · cases h
    · rename_i n hone hcount
      obtain ⟨-, rfl⟩ := Prod.mk.inj (Option.some.inj h)
      have hpos : n ≠ 0 ∧ n ≠ 1 := by
        refine ⟨?_, hone⟩
        rintro rfl
        unfold octetCount at hcount
        repeat' split at hcount
        all_goals cases hcount
      exact Nat.sub_ne_zero_of_lt (by omega)
  · obtain ⟨v, -, hv⟩ := Option.map_eq_some_iff.mp h
    exact absurd (Prod.mk.inj hv).1 (utf16_ne_nil v)
  · obtain ⟨-, rfl⟩ := Prod.mk.inj (Option.some.inj h)
    exact Nat.succ_ne_zero _

-- Something decodes to something.
theorem decodeFrom_ne_nil {pending : Pending} {s u : List Nat}
    (h : decodeFrom pending s = some u) (hs : s ≠ [] ∨ pending.missing ≠ 0) : u ≠ [] := by
  fun_induction decodeFrom pending s generalizing u with
  | case1 pending hm => exact absurd hm (hs.resolve_left (by simp))
  | case2 => cases h
  | case3 => cases h
  | case4 => cases h
  | case5 pending hi lo rest b hhex units next hoctet ih =>
      obtain ⟨v, hv, rfl⟩ := Option.map_eq_some_iff.mp h
      intro hnil
      obtain ⟨hunits, rfl⟩ := List.append_eq_nil_iff.mp hnil
      subst hunits
      exact ih hv (Or.inr (octet_pending hoctet)) rfl
  | case6 => cases h
  | case7 pending c rest _ hplain ih =>
      obtain ⟨v, hv, rfl⟩ := Option.map_eq_some_iff.mp h
      simp

theorem decode_ne_nil {s u : List Nat} (h : decode s = some u) (hs : s ≠ []) : u ≠ [] :=
  decodeFrom_ne_nil h (Or.inl hs)

-- A part of a text never decodes to the same as the whole.
theorem decode_prefix {a b u : List Nat} (ha : decode a = some u) (hab : decode (a ++ b) = some u) :
    b = [] := by
  rw [decode_append ha] at hab
  obtain ⟨v, hv, huv⟩ := Option.map_eq_some_iff.mp hab
  obtain rfl : v = [] := List.append_right_eq_self.mp huv
  by_contra hb
  exact decode_ne_nil hv hb rfl

example : decode [37, 67, 51, 37, 65, 57] = some [233] := by decide

example : decode [37] = none := by decide

end WebFort.Library.Percent
