import WebFort.Library.Percent
import WebFort.Library.Words
import Mathlib.Data.List.Basic

namespace WebFort.Library.Percent

-- encodeURIComponent on a string of Unicode scalar values; for any other the
-- browser throws.

-- A-Z a-z 0-9 - _ . ! ~ * ' ( )
def isUnreserved (c : Char) : Bool :=
  let v := c.toNat
  (48 ≤ v && v ≤ 57) || (65 ≤ v && v ≤ 90) || (97 ≤ v && v ≤ 122) ||
    v ∈ [45, 95, 46, 33, 126, 42, 39, 40, 41]

def hexChar (n : Nat) : UInt8 := UInt8.ofNat (if n < 10 then 48 + n else 55 + n)

def escape (b : UInt8) : Bytes := [37, hexChar (b.toNat / 16), hexChar (b.toNat % 16)]

def encodeChar (c : Char) : Bytes :=
  if isUnreserved c then [UInt8.ofNat c.toNat] else (String.utf8EncodeChar c).flatMap escape

def encode (s : List Char) : Bytes := s.flatMap encodeChar

def utf8 (s : List Char) : Bytes := s.flatMap String.utf8EncodeChar

-- The string as its code units.
def codeUnits (s : List Char) : List Nat := s.flatMap fun c => utf16 c.toNat

theorem isUnreserved_lt {c : Char} (h : isUnreserved c = true) :
    c.toNat < 128 ∧ c.toNat ≠ 37 ∧ c.toNat ≠ 47 ∧ c.toNat ≠ 0 := by
  simp only [isUnreserved, Bool.or_eq_true, Bool.and_eq_true, decide_eq_true_eq, List.mem_cons,
    List.not_mem_nil, or_false] at h
  omega

theorem hexDigit_hexChar {n : Nat} (h : n < 16) : hexDigit (hexChar n).toNat = some n := by
  revert h
  revert n
  decide

theorem hexOctet_escape (b : UInt8) :
    hexOctet (hexChar (b.toNat / 16)).toNat (hexChar (b.toNat % 16)).toNat = some b.toNat := by
  have hb := b.toNat_lt
  unfold hexOctet
  rw [hexDigit_hexChar (by omega), hexDigit_hexChar (by omega)]
  exact congrArg some (by omega)

-- The decoder takes an escape back as its octet.
theorem decodeFrom_escaped (pending : Pending) (b : UInt8) (rest : List Nat) :
    decodeFrom pending ((escape b).map UInt8.toNat ++ rest) =
      (octet pending b.toNat).bind fun r => (decodeFrom r.2 rest).map (r.1 ++ ·) := by
  have hunits : (escape b).map UInt8.toNat ++ rest =
      37 :: (hexChar (b.toNat / 16)).toNat :: (hexChar (b.toNat % 16)).toNat :: rest := rfl
  rw [hunits, decodeFrom_escape, hexOctet_escape]
  rfl

-- The octets of one character, escaped.
def escapes (bs : Bytes) : List Nat := (bs.flatMap escape).map UInt8.toNat

theorem escapes_cons (b : UInt8) (bs : Bytes) :
    escapes (b :: bs) = (escape b).map UInt8.toNat ++ escapes bs := by
  simp [escapes]

theorem decodeFrom_escapes {pending next : Pending} {b : UInt8} {units : List Nat}
    (h : octet pending b.toNat = some (units, next)) (bs : Bytes) :
    decodeFrom pending (escapes (b :: bs)) = (decodeFrom next (escapes bs)).map (units ++ ·) := by
  rw [escapes_cons, decodeFrom_escaped, h]
  rfl

theorem octet_single {b : Nat} (h : b < 0x80) : octet ⟨0, []⟩ b = some ([b], ⟨0, []⟩) := by
  simp [octet, octetCount, h]

theorem octet_lead {b n : Nat} (h : octetCount b = some (n + 2)) :
    octet ⟨0, []⟩ b = some ([], ⟨n + 1, [b]⟩) := by
  simp [octet, h]

theorem octet_last {os : List Nat} {b v : Nat} (h : codePoint (os ++ [b]) = some v) :
    octet ⟨1, os⟩ b = some (utf16 v, ⟨0, []⟩) := by
  simp [octet, h]

theorem toNat_ofNat {n : Nat} (h : n < 256) : (UInt8.ofNat n).toNat = n := by
  simp [Nat.mod_eq_of_lt h]

theorem scalar_bounds (c : Char) : c.toNat < 0xD800 ∨ 0xDFFF < c.toNat ∧ c.toNat < 0x110000 :=
  c.valid

theorem utf16_small {v : Nat} (h : v < 0x10000) : utf16 v = [v] := if_pos h

theorem isTail_iff (b : Nat) : isTail b = true ↔ 0x80 ≤ b ∧ b < 0xC0 := by simp [isTail]

-- The lengths of a UTF-8 sequence, beside a single octet.
theorem decode_two {v : Nat} (hlo : 0x80 ≤ v) (hhi : v < 0x800) :
    decode (escapes [UInt8.ofNat (v / 64 % 0x20 + 0xc0), UInt8.ofNat (v % 0x40 + 0x80)]) =
      some (utf16 v) := by
  have h1 := toNat_ofNat (n := v / 64 % 0x20 + 0xc0) (by omega)
  have h2 := toNat_ofNat (n := v % 0x40 + 0x80) (by omega)
  have hlead : octetCount (v / 64 % 0x20 + 0xc0) = some (0 + 2) := by
    unfold octetCount
    rw [if_neg (by omega), if_neg (by omega), if_pos (by omega)]
  have hcode : codePoint [v / 64 % 0x20 + 0xc0, v % 0x40 + 0x80] = some v := by
    have hv : (v / 64 % 0x20 + 0xc0) % 32 * 64 + (v % 0x40 + 0x80) % 64 = v := by omega
    simp only [codePoint, hv, isTail_iff]
    exact if_pos (by omega)
  unfold decode
  rw [decodeFrom_escapes (by rw [h1]; exact octet_lead hlead),
    decodeFrom_escapes (by rw [h2]; exact octet_last hcode)]
  simp [escapes, decodeFrom]

theorem decode_three {v : Nat} (hlo : 0x800 ≤ v) (hhi : v < 0x10000)
    (hv : v < 0xD800 ∨ 0xDFFF < v) :
    decode (escapes [UInt8.ofNat (v / 4096 % 0x10 + 0xe0), UInt8.ofNat (v / 64 % 0x40 + 0x80),
      UInt8.ofNat (v % 0x40 + 0x80)]) = some (utf16 v) := by
  have h1 := toNat_ofNat (n := v / 4096 % 0x10 + 0xe0) (by omega)
  have h2 := toNat_ofNat (n := v / 64 % 0x40 + 0x80) (by omega)
  have h3 := toNat_ofNat (n := v % 0x40 + 0x80) (by omega)
  have hlead : octetCount (v / 4096 % 0x10 + 0xe0) = some (1 + 2) := by
    unfold octetCount
    rw [if_neg (by omega), if_neg (by omega), if_neg (by omega), if_pos (by omega)]
  have hcode : codePoint [v / 4096 % 0x10 + 0xe0, v / 64 % 0x40 + 0x80, v % 0x40 + 0x80] =
      some v := by
    have hsum : (v / 4096 % 0x10 + 0xe0) % 16 * 4096 + (v / 64 % 0x40 + 0x80) % 64 * 64 +
        (v % 0x40 + 0x80) % 64 = v := by omega
    simp only [codePoint, hsum, isTail_iff]
    exact if_pos (by omega)
  unfold decode
  rw [decodeFrom_escapes (by rw [h1]; exact octet_lead hlead), decodeFrom_escapes rfl,
    decodeFrom_escapes (by rw [h2, h3]; exact octet_last hcode)]
  simp [escapes, decodeFrom]

theorem decode_four {v : Nat} (hlo : 0x10000 ≤ v) (hhi : v < 0x110000) :
    decode (escapes [UInt8.ofNat (v / 262144 % 0x08 + 0xf0), UInt8.ofNat (v / 4096 % 0x40 + 0x80),
      UInt8.ofNat (v / 64 % 0x40 + 0x80), UInt8.ofNat (v % 0x40 + 0x80)]) = some (utf16 v) := by
  have h1 := toNat_ofNat (n := v / 262144 % 0x08 + 0xf0) (by omega)
  have h2 := toNat_ofNat (n := v / 4096 % 0x40 + 0x80) (by omega)
  have h3 := toNat_ofNat (n := v / 64 % 0x40 + 0x80) (by omega)
  have h4 := toNat_ofNat (n := v % 0x40 + 0x80) (by omega)
  have hlead : octetCount (v / 262144 % 0x08 + 0xf0) = some (2 + 2) := by
    unfold octetCount
    rw [if_neg (by omega), if_neg (by omega), if_neg (by omega), if_neg (by omega),
      if_pos (by omega)]
  have hcode : codePoint [v / 262144 % 0x08 + 0xf0, v / 4096 % 0x40 + 0x80,
      v / 64 % 0x40 + 0x80, v % 0x40 + 0x80] = some v := by
    have hsum : (v / 262144 % 0x08 + 0xf0) % 8 * 262144 + (v / 4096 % 0x40 + 0x80) % 64 * 4096 +
        (v / 64 % 0x40 + 0x80) % 64 * 64 + (v % 0x40 + 0x80) % 64 = v := by omega
    simp only [codePoint, hsum, isTail_iff]
    exact if_pos (by omega)
  unfold decode
  rw [decodeFrom_escapes (by rw [h1]; exact octet_lead hlead), decodeFrom_escapes rfl,
    decodeFrom_escapes rfl, decodeFrom_escapes (by rw [h2, h3, h4]; exact octet_last hcode)]
  simp [escapes, decodeFrom]

theorem decode_escapes (c : Char) :
    decode (escapes (String.utf8EncodeChar c)) = some (utf16 c.toNat) := by
  have hscalar := scalar_bounds c
  have hval : c.val.toNat = c.toNat := rfl
  unfold String.utf8EncodeChar
  simp only [hval]
  split
  · rename_i h
    have h1 := toNat_ofNat (n := c.toNat) (by omega)
    unfold decode
    rw [decodeFrom_escapes (by rw [h1]; exact octet_single (by omega)), utf16_small (by omega)]
    simp [escapes, decodeFrom]
  · split
    · exact decode_two (by omega) (by omega)
    · split
      · exact decode_three (by omega) (by omega) (by omega)
      · exact decode_four (by omega) (by omega)

theorem decode_encodeChar (c : Char) :
    decode ((encodeChar c).map UInt8.toNat) = some (utf16 c.toNat) := by
  unfold encodeChar
  split
  · rename_i h
    obtain ⟨hlt, hpercent, -, -⟩ := isUnreserved_lt h
    have hunit : [UInt8.ofNat c.toNat].map UInt8.toNat = [c.toNat] := by
      rw [List.map_singleton, toNat_ofNat (by omega)]
    rw [hunit, utf16_small (by omega)]
    exact decode_of_no_percent (by simpa using hpercent.symm)
  · exact decode_escapes c

theorem decode_encode (s : List Char) : decode ((encode s).map UInt8.toNat) = some (codeUnits s) := by
  induction s with
  | nil => rfl
  | cons c s ih =>
      have hcons : (encode (c :: s)).map UInt8.toNat =
          (encodeChar c).map UInt8.toNat ++ (encode s).map UInt8.toNat := by
        simp [encode]
      rw [hcons, decode_append (decode_encodeChar c), ih]
      rfl

-- An unreserved character is its own UTF-8 sequence.
theorem encodeChar_unreserved {c : Char} (h : isUnreserved c = true) :
    encodeChar c = String.utf8EncodeChar c := by
  have hlt := (isUnreserved_lt h).1
  have hval : c.val.toNat = c.toNat := rfl
  unfold encodeChar String.utf8EncodeChar
  rw [if_pos h]
  simp only [hval]
  rw [if_pos (by omega)]

theorem length_escaped (bs : Bytes) : (bs.flatMap escape).length = 3 * bs.length := by
  induction bs with
  | nil => rfl
  | cons b bs ih =>
      rw [List.flatMap_cons, List.length_append, ih, List.length_cons, Nat.mul_succ, Nat.add_comm]
      rfl

theorem length_encodeChar {c : Char} (h : isUnreserved c = false) :
    (String.utf8EncodeChar c).length < (encodeChar c).length := by
  have hpos : 0 < (String.utf8EncodeChar c).length :=
    List.length_pos_iff.mpr String.utf8EncodeChar_ne_nil
  unfold encodeChar
  rw [if_neg (by simp [h]), length_escaped]
  omega

theorem length_utf8_le (s : List Char) : (utf8 s).length ≤ (encode s).length := by
  induction s with
  | nil => exact Nat.le_refl _
  | cons c s ih =>
      simp only [utf8, encode, List.flatMap_cons, List.length_append] at ih ⊢
      cases h : isUnreserved c with
      | true => rw [encodeChar_unreserved h]; omega
      | false => have hc := length_encodeChar h; omega

-- An escape makes the text longer, so it cannot be what it stands for.
theorem encode_eq_utf8_iff (s : List Char) :
    encode s = utf8 s ↔ ∀ c ∈ s, isUnreserved c = true := by
  induction s with
  | nil => exact iff_of_true rfl (by simp)
  | cons c s ih =>
      rw [List.forall_mem_cons, ← ih]
      simp only [utf8, encode, List.flatMap_cons]
      cases h : isUnreserved c with
      | true => simp [encodeChar_unreserved h]
      | false =>
          have hc := length_encodeChar h
          have hs := length_utf8_le s
          simp only [Bool.false_eq_true, false_and, iff_false]
          intro heq
          have hlen := congrArg List.length heq
          simp only [utf8, encode, List.length_append] at hs hlen
          omega

theorem hexChar_safe {n : Nat} (h : n < 16) : hexChar n ≠ 47 ∧ hexChar n ≠ 0 := by
  revert h
  revert n
  decide

-- Neither the separator of a path nor the end of a C string.
theorem encode_safe (s : List Char) : ∀ b ∈ encode s, b ≠ 47 ∧ b ≠ 0 := by
  intro b hb
  obtain ⟨c, -, hb⟩ := List.mem_flatMap.mp hb
  unfold encodeChar at hb
  split at hb
  · rename_i h
    obtain ⟨hlt, -, hslash, hnul⟩ := isUnreserved_lt h
    rw [List.mem_singleton.mp hb]
    simp only [ne_eq, ← UInt8.toNat_inj, toNat_ofNat (show c.toNat < 256 by omega)]
    exact ⟨hslash, hnul⟩
  · obtain ⟨o, -, hb⟩ := List.mem_flatMap.mp hb
    have ho := o.toNat_lt
    simp only [escape, List.mem_cons, List.not_mem_nil, or_false] at hb
    rcases hb with rfl | rfl | rfl
    · decide
    · exact hexChar_safe (by omega)
    · exact hexChar_safe (by omega)

section Utf8

theorem utf8_append (s t : List Char) : utf8 (s ++ t) = utf8 s ++ utf8 t := List.flatMap_append

theorem utf8_injective : Function.Injective utf8 := by
  intro s t h
  apply String.ofList_injective
  apply String.toByteArray_inj.mp
  rw [String.toByteArray_ofList, String.toByteArray_ofList, List.utf8Encode, List.utf8Encode]
  exact congrArg List.toByteArray h

def IsAscii (bs : Bytes) : Prop := ∀ b ∈ bs, b.toNat < 128

theorem isAscii_iff (bs : Bytes) : (bs.all fun b => decide (b.toNat < 128)) = true ↔ IsAscii bs := by
  simp only [List.all_eq_true, decide_eq_true_eq, IsAscii]

instance (bs : Bytes) : Decidable (IsAscii bs) := decidable_of_iff _ (isAscii_iff bs)

theorem IsAscii.append {bs cs : Bytes} (hb : IsAscii bs) (hc : IsAscii cs) : IsAscii (bs ++ cs) :=
  fun b h => (List.mem_append.mp h).elim (hb b) (hc b)

-- The characters of an ASCII text.
def chars (bs : Bytes) : List Char := bs.map fun b => Char.ofNat b.toNat

theorem char_toNat {b : UInt8} (h : b.toNat < 128) : (Char.ofNat b.toNat).toNat = b.toNat := by
  have hvalid : b.toNat.isValidChar := Or.inl (by omega)
  unfold Char.ofNat
  rw [dif_pos hvalid]
  rfl

theorem chars_toNat {bs : Bytes} (h : IsAscii bs) :
    (chars bs).map Char.toNat = bs.map UInt8.toNat := by
  rw [chars, List.map_map]
  exact List.map_congr_left fun b hb => char_toNat (h b hb)

theorem utf8_chars {bs : Bytes} (h : IsAscii bs) : utf8 (chars bs) = bs := by
  induction bs with
  | nil => rfl
  | cons b bs ih =>
      have hb := h b List.mem_cons_self
      have hrest := ih fun b hb => h b (List.mem_cons_of_mem _ hb)
      have hsize : (Char.ofNat b.toNat).utf8Size = 1 := by
        rw [Char.utf8Size_eq_one_iff, UInt32.le_iff_toNat_le]
        show (Char.ofNat b.toNat).toNat ≤ 127
        rw [char_toNat hb]
        omega
      have hchar : String.utf8EncodeChar (Char.ofNat b.toNat) = [b] := by
        rw [String.utf8EncodeChar_eq_singleton hsize]
        show [(Char.ofNat b.toNat).toNat.toUInt8] = [b]
        rw [char_toNat hb]
        simp
      have hcons : utf8 (chars (b :: bs)) =
          String.utf8EncodeChar (Char.ofNat b.toNat) ++ utf8 (chars bs) := rfl
      rw [hcons, hchar, hrest]
      rfl

end Utf8

end WebFort.Library.Percent
