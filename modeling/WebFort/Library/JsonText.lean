import WebFort.Library.Decimal
import WebFort.Library.Percent.Encode

namespace WebFort.Library.JsonText

open Percent (utf16 hexDigit)

-- A text is the list of its code points, a string of the value it stands for
-- the list of its UTF-16 code units. Members keep their order and repetitions.
inductive Value
  | null
  | bool (b : Bool)
  | num (mantissa exponent : Int)
  | str (units : List Nat)
  | arr (vs : List Value)
  | obj (ms : List (List Nat × Value))

abbrev Member := List Nat × Value

section Strings

-- Between the quotes: after a backslash, or before so many further digits of
-- a \u escape with the value read so far.
inductive Quote
  | plain
  | escaped
  | hex (further value : Nat)

def escapeUnit (c : Nat) : Option Nat :=
  if c = 34 ∨ c = 92 ∨ c = 47 then some c
  else if c = 98 then some 8
  else if c = 102 then some 12
  else if c = 110 then some 10
  else if c = 114 then some 13
  else if c = 116 then some 9
  else none

-- Up to the closing quote: the code units and the text behind it.
def readChars : Quote → List Nat → Option (List Nat × List Nat)
  | _, [] => none
  | .plain, c :: text =>
      if c = 34 then some ([], text)
      else if c = 92 then readChars .escaped text
      else if c < 32 then none
      else (readChars .plain text).map fun r => (utf16 c ++ r.1, r.2)
  | .escaped, c :: text =>
      if c = 117 then readChars (.hex 3 0) text
      else (escapeUnit c).bind fun u =>
        (readChars .plain text).map fun r => (u :: r.1, r.2)
  | .hex further value, c :: text =>
      (hexDigit c).bind fun d =>
        match further with
        | 0 => (readChars .plain text).map fun r => ((16 * value + d) :: r.1, r.2)
        | further + 1 => readChars (.hex further (16 * value + d)) text

-- Characters that stand for themselves.
def Unescaped (text : List Nat) : Prop := ∀ c ∈ text, c ≠ 34 ∧ c ≠ 92 ∧ 32 ≤ c

def units (text : List Nat) : List Nat := text.flatMap utf16

@[simp] theorem units_nil : units [] = [] := rfl

@[simp] theorem units_cons (c : Nat) (text : List Nat) :
    units (c :: text) = utf16 c ++ units text := rfl

theorem one_le_utf16 (c : Nat) : 1 ≤ (utf16 c).length :=
  List.length_pos_iff.mpr (Percent.utf16_ne_nil c)

theorem readChars_unescaped {text : List Nat} (h : Unescaped text) (rest : List Nat) :
    readChars .plain (text ++ 34 :: rest) = some (units text, rest) := by
  induction text with
  | nil => rfl
  | cons c text ih =>
      obtain ⟨hquote, hslash, hcontrol⟩ := h c List.mem_cons_self
      have hrest := ih fun c hc => h c (List.mem_cons_of_mem _ hc)
      rw [List.cons_append, readChars, if_neg hquote, if_neg hslash, if_neg (by omega), hrest]
      rfl

-- A character gives no more than its own code units, wherever it stands; the
-- string ends in the text, or is still open behind it.
theorem readChars_append {q : Quote} {text rest us out : List Nat}
    (h : readChars q (text ++ rest) = some (us, out)) :
    us.length ≤ (units text).length ∨
      ∃ q' vs ws, us = vs ++ ws ∧ vs.length ≤ (units text).length ∧
        readChars q' rest = some (ws, out) := by
  induction text generalizing q us with
  | nil => exact Or.inr ⟨q, [], us, rfl, Nat.zero_le _, h⟩
  | cons c text ih =>
      have hone := one_le_utf16 c
      -- what c gives, and the rest of the text behind it
      have hnext : ∀ (first : List Nat) {q' : Quote} {us' : List Nat}, us = first ++ us' →
          first.length ≤ (utf16 c).length → readChars q' (text ++ rest) = some (us', out) →
          us.length ≤ (units (c :: text)).length ∨
            ∃ q' vs ws, us = vs ++ ws ∧ vs.length ≤ (units (c :: text)).length ∧
              readChars q' rest = some (ws, out) := by
        rintro first q' us' rfl hfirst hread
        rw [units_cons]
        rcases ih hread with hlen | ⟨q'', vs, ws, rfl, hlen, hopen⟩
        · left
          simp only [List.length_append]
          omega
        · right
          refine ⟨q'', first ++ vs, ws, (List.append_assoc _ _ _).symm, ?_, hopen⟩
          simp only [List.length_append]
          omega
      cases q with
      | plain =>
          rw [List.cons_append, readChars] at h
          split at h
          · obtain ⟨rfl, -⟩ := Prod.mk.inj (Option.some.inj h)
            exact Or.inl (Nat.zero_le _)
          · split at h
            · exact hnext [] rfl (Nat.zero_le _) h
            · split at h
              · cases h
              · obtain ⟨⟨us', out'⟩, hread, heq⟩ := Option.map_eq_some_iff.mp h
                obtain ⟨rfl, rfl⟩ := Prod.mk.inj heq
                exact hnext (utf16 c) rfl (Nat.le_refl _) hread
      | escaped =>
          rw [List.cons_append, readChars] at h
          split at h
          · exact hnext [] rfl (Nat.zero_le _) h
          · obtain ⟨u, -, h⟩ := Option.bind_eq_some_iff.mp h
            obtain ⟨⟨us', out'⟩, hread, heq⟩ := Option.map_eq_some_iff.mp h
            obtain ⟨rfl, rfl⟩ := Prod.mk.inj heq
            exact hnext [u] rfl hone hread
      | hex further value =>
          rw [List.cons_append, readChars] at h
          obtain ⟨d, -, h⟩ := Option.bind_eq_some_iff.mp h
          cases further with
          | zero =>
              obtain ⟨⟨us', out'⟩, hread, heq⟩ := Option.map_eq_some_iff.mp h
              obtain ⟨rfl, rfl⟩ := Prod.mk.inj heq
              exact hnext [_] rfl hone hread
          | succ further => exact hnext [] rfl (Nat.zero_le _) h

-- Text that is read as itself has no escape in it; the one way out is that
-- its last backslash takes the quote that should close it.
theorem readChars_eq_units {text rest us out : List Nat}
    (h : readChars .plain (text ++ 34 :: rest) = some (us, out)) (hus : us = units text) :
    Unescaped text ∨ ∃ ws, readChars .plain rest = some (ws, out) := by
  induction text generalizing us with
  | nil => exact Or.inl (List.forall_mem_nil _)
  | cons c text ih =>
      have hone := one_le_utf16 c
      have hlength := congrArg List.length hus
      rw [units_cons, List.length_append] at hlength
      rw [List.cons_append, readChars] at h
      split at h
      · obtain ⟨rfl, -⟩ := Prod.mk.inj (Option.some.inj h)
        rw [List.length_nil] at hlength
        omega
      next hquote =>
        split at h
        · -- the backslash is lost, so something else has to come from behind
          rcases readChars_append h with hlen | ⟨q, vs, ws, rfl, hlen, hopen⟩
          · omega
          · rw [List.length_append] at hlength
            cases q with
            | plain =>
                obtain ⟨rfl, -⟩ := Prod.mk.inj (Option.some.inj hopen)
                rw [List.length_nil] at hlength
                omega
            | escaped =>
                obtain ⟨⟨ws', out'⟩, hread, heq⟩ := Option.map_eq_some_iff.mp hopen
                obtain ⟨-, rfl⟩ := Prod.mk.inj heq
                exact Or.inr ⟨ws', hread⟩
            | hex further value => cases hopen
        next hslash =>
          split at h
          · cases h
          next hcontrol =>
            obtain ⟨⟨us', out'⟩, hread, heq⟩ := Option.map_eq_some_iff.mp h
            obtain ⟨rfl, rfl⟩ := Prod.mk.inj heq
            rcases ih hread (List.append_cancel_left hus) with hrest | hopen
            · left
              intro b hb
              rcases List.mem_cons.mp hb with rfl | hb
              · exact ⟨hquote, hslash, by omega⟩
              · exact hrest b hb
            · exact Or.inr hopen

end Strings

section Numbers

def isDigit (c : Nat) : Bool := decide (48 ≤ c) && decide (c ≤ 57)

def value (ds : List Nat) : Nat := ds.foldl (fun n c => 10 * n + (c - 48)) 0

def readMinus : List Nat → Int × List Nat
  | [] => (1, [])
  | c :: text => if c = 45 then (-1, text) else (1, c :: text)

-- One digit or more.
def readDigits (text : List Nat) : Option (List Nat × List Nat) :=
  if text.takeWhile isDigit = [] then none
  else some (text.takeWhile isDigit, text.dropWhile isDigit)

-- The digits of the fraction, if there is one.
def readFraction : List Nat → Option (List Nat × List Nat)
  | [] => some ([], [])
  | c :: text => if c = 46 then readDigits text else some ([], c :: text)

def readExponent : List Nat → Option (Int × List Nat)
  | [] => some (0, [])
  | c :: text =>
      if c = 101 ∨ c = 69 then
        let signed := match text with
          | 43 :: text => (1, text)
          | _ => readMinus text
        (readDigits signed.2).map fun r => (signed.1 * value r.1, r.2)
      else some (0, c :: text)

-- No digit may follow a leading zero.
def readNumber (text : List Nat) : Option (Value × List Nat) :=
  let sign := readMinus text
  (readDigits sign.2).bind fun whole =>
    if whole.1.head? = some 48 ∧ whole.1.length ≠ 1 then none
    else (readFraction whole.2).bind fun fraction =>
      (readExponent fraction.2).map fun e =>
        (.num (sign.1 * value (whole.1 ++ fraction.1)) (e.1 - fraction.1.length), e.2)

end Numbers

section Values

def isSpace (c : Nat) : Bool := c == 32 || c == 9 || c == 10 || c == 13

def skip (text : List Nat) : List Nat := text.dropWhile isSpace

def readLiteral (word : List Nat) (v : Value) (text : List Nat) : Option (Value × List Nat) :=
  if text.take word.length = word then some (v, text.drop word.length) else none

def readColon (text : List Nat) : Option (List Nat) :=
  match skip text with
  | 58 :: rest => some (skip rest)
  | _ => none

-- Behind an element: the closing bracket, or a comma and more elements.
def readNext {α : Type} (close : Nat) (more : List Nat → Option (List α × List Nat)) (v : α)
    (text : List Nat) : Option (List α × List Nat) :=
  match skip text with
  | [] => none
  | c :: rest =>
      if c = close then some ([v], rest)
      else if c = 44 then (more (skip rest)).map fun r => (v :: r.1, r.2)
      else none

-- The first argument bounds the depth of the calls.
mutual

def readValue : Nat → List Nat → Option (Value × List Nat)
  | n + 1, c :: text =>
      if c = 34 then (readChars .plain text).map fun r => (.str r.1, r.2)
      else if c = 123 then
        if (skip text).head? = some 125 then some (.obj [], (skip text).tail)
        else (readMembers n (skip text)).map fun r => (.obj r.1, r.2)
      else if c = 91 then
        if (skip text).head? = some 93 then some (.arr [], (skip text).tail)
        else (readElements n (skip text)).map fun r => (.arr r.1, r.2)
      else if c = 116 then readLiteral [116, 114, 117, 101] (.bool true) (c :: text)
      else if c = 102 then readLiteral [102, 97, 108, 115, 101] (.bool false) (c :: text)
      else if c = 110 then readLiteral [110, 117, 108, 108] .null (c :: text)
      else readNumber (c :: text)
  | _, _ => none

def readElements : Nat → List Nat → Option (List Value × List Nat)
  | n + 1, text => (readValue n text).bind fun v => readNext 93 (readElements n) v.1 v.2
  | 0, _ => none

def readMembers : Nat → List Nat → Option (List Member × List Nat)
  | n + 1, 34 :: text =>
      (readChars .plain text).bind fun k =>
        (readColon k.2).bind fun rest =>
          (readValue n rest).bind fun v => readNext 125 (readMembers n) (k.1, v.1) v.2
  | _, _ => none

end

def parse (text : List Nat) : Option Value :=
  match readValue text.length (skip text) with
  | some (v, rest) => if skip rest = [] then some v else none
  | none => none

end Values

section Ascii

-- The code points of a text that is written in ASCII.
def points (bs : Bytes) : List Nat := bs.map UInt8.toNat

@[simp] theorem points_nil : points [] = [] := rfl

@[simp] theorem points_cons (b : UInt8) (bs : Bytes) : points (b :: bs) = b.toNat :: points bs := rfl

@[simp] theorem points_append (bs cs : Bytes) : points (bs ++ cs) = points bs ++ points cs :=
  List.map_append

theorem units_points (bs : Bytes) : units (points bs) = points bs := by
  induction bs with
  | nil => rfl
  | cons b bs ih =>
      have hb := b.toNat_lt
      rw [points_cons, units_cons, ih, Percent.utf16_small (by omega)]
      rfl

theorem isDigit_toNat (b : UInt8) : isDigit b.toNat = Decimal.isDigit b := by
  simp [isDigit, Decimal.isDigit, UInt8.le_iff_toNat_le]

theorem points_digits_all (n : Nat) : (points (Decimal.digits n)).all isDigit = true := by
  rw [points, List.all_map]
  refine (List.all_congr rfl fun b => isDigit_toNat b).trans (Decimal.digits_all n)

theorem value_points (bs : Bytes) : value (points bs) = Decimal.value bs := by
  rw [value, points, List.foldl_map]
  rfl

end Ascii

section Reading

-- What follows a value: a comma, or the space before the closing bracket.
def Stops (rest : List Nat) : Prop := ∀ c ∈ rest.head?, c = 44 ∨ c = 32

theorem readDigits_append {ds rest : List Nat} (hne : ds ≠ []) (hall : ds.all isDigit = true)
    (hrest : ∀ c ∈ rest.head?, isDigit c = false) : readDigits (ds ++ rest) = some (ds, rest) := by
  have hdrop : rest.dropWhile isDigit = rest ∧ rest.takeWhile isDigit = [] := by
    cases rest with
    | nil => exact ⟨rfl, rfl⟩
    | cons c rest => simp [hrest c rfl]
  have htake : (ds ++ rest).takeWhile isDigit = ds := by
    rw [List.takeWhile_append_of_pos (List.all_eq_true.mp hall), hdrop.2, List.append_nil]
  have hkeep : (ds ++ rest).dropWhile isDigit = rest := by
    rw [List.dropWhile_append_of_pos (List.all_eq_true.mp hall), hdrop.1]
  rw [readDigits, htake, hkeep, if_neg hne]

theorem Stops.number {rest : List Nat} (h : Stops rest) :
    (∀ c ∈ rest.head?, isDigit c = false) ∧ readFraction rest = some ([], rest) ∧
      readExponent rest = some (0, rest) := by
  cases rest with
  | nil => exact ⟨nofun, rfl, rfl⟩
  | cons c rest =>
      rcases h c rfl with rfl | rfl
      · exact ⟨fun c hc => by cases hc; rfl, rfl, rfl⟩
      · exact ⟨fun c hc => by cases hc; rfl, rfl, rfl⟩

theorem head_points_digits {n : Nat} (h : (points (Decimal.digits n)).head? = some 48) :
    (points (Decimal.digits n)).length = 1 := by
  rcases Nat.eq_zero_or_pos n with rfl | hn
  · rfl
  · exfalso
    rw [points, List.head?_map] at h
    obtain ⟨b, hb, hnat⟩ := Option.map_eq_some_iff.mp h
    obtain rfl : b = 48 := UInt8.toNat_inj.mp hnat
    exact Decimal.head_digits hn hb

theorem readNumber_digits {sign : Int} {text rest : List Nat} {n : Nat} (h : Stops rest)
    (htext : readMinus text = (sign, points (Decimal.digits n) ++ rest)) :
    readNumber text = some (.num (sign * n) 0, rest) := by
  obtain ⟨hdigit, hfraction, hexponent⟩ := h.number
  have hne : points (Decimal.digits n) ≠ [] := by
    rw [points, Ne, List.map_eq_nil_iff]
    exact Decimal.digits_ne_nil n
  have hzero : ¬((points (Decimal.digits n)).head? = some 48 ∧
      (points (Decimal.digits n)).length ≠ 1) :=
    fun hlead => hlead.2 (head_points_digits hlead.1)
  simp only [readNumber, htext, readDigits_append hne (points_digits_all n) hdigit,
    Option.bind_some, if_neg hzero, hfraction, hexponent, Option.map_some, List.append_nil,
    value_points, Decimal.value_digits, List.length_nil]
  rfl

theorem readNumber_signed (n : Int) {rest : List Nat} (h : Stops rest) :
    readNumber (points (Decimal.signed n) ++ rest) = some (.num n 0, rest) := by
  unfold Decimal.signed
  split
  next hneg =>
    have hminus : readMinus (points (45 :: Decimal.digits n.natAbs) ++ rest) =
        (-1, points (Decimal.digits n.natAbs) ++ rest) := rfl
    rw [readNumber_digits h hminus]
    congr 3
    omega
  next hpos =>
    have hminus : readMinus (points (Decimal.digits n.natAbs) ++ rest) =
        (1, points (Decimal.digits n.natAbs) ++ rest) := by
      cases hds : points (Decimal.digits n.natAbs) with
      | nil => exact absurd (List.map_eq_nil_iff.mp hds) (Decimal.digits_ne_nil _)
      | cons c ds =>
          have hall := points_digits_all n.natAbs
          rw [hds, List.all_cons, Bool.and_eq_true] at hall
          have hc : c ≠ 45 := by
            rintro rfl
            exact absurd hall.1 (by decide)
          exact if_neg hc
    rw [readNumber_digits h hminus]
    congr 3
    omega

-- A text in which a value stands, with nothing of it left to read.
structure Reads (text : List Nat) (v : Value) : Prop where
  head : ∀ rest, skip (text ++ rest) = text ++ rest
  value : ∀ n rest, Stops rest → readValue (n + 1) (text ++ rest) = some (v, rest)

theorem skip_of_head {c : Nat} (h : isSpace c = false) (text : List Nat) :
    skip (c :: text) = c :: text := by
  simp [skip, h]

theorem Reads.number (n : Int) : Reads (points (Decimal.signed n)) (.num n 0) := by
  obtain ⟨c, ds, hds, hc⟩ : ∃ c ds, points (Decimal.signed n) = c :: ds ∧
      (c = 45 ∨ isDigit c = true) := by
    unfold Decimal.signed
    split
    · exact ⟨45, _, rfl, Or.inl rfl⟩
    · cases hds : points (Decimal.digits n.natAbs) with
      | nil => exact absurd (List.map_eq_nil_iff.mp hds) (Decimal.digits_ne_nil _)
      | cons c ds =>
          have hall := points_digits_all n.natAbs
          rw [hds, List.all_cons, Bool.and_eq_true] at hall
          exact ⟨c, ds, rfl, Or.inr hall.1⟩
  have hrange : c = 45 ∨ (48 ≤ c ∧ c ≤ 57) := by
    rcases hc with hc | hc
    · exact Or.inl hc
    · right
      simpa [isDigit] using hc
  constructor
  · intro rest
    rw [hds]
    apply skip_of_head
    simp only [isSpace, Bool.or_eq_false_iff, beq_eq_false_iff_ne]
    omega
  · intro k rest hrest
    have hread := readNumber_signed n hrest
    rw [hds, List.cons_append] at hread ⊢
    rw [readValue, if_neg (by omega), if_neg (by omega), if_neg (by omega), if_neg (by omega),
      if_neg (by omega), if_neg (by omega)]
    exact hread

theorem Reads.string {text : List Nat} (h : Unescaped text) :
    Reads (34 :: (text ++ [34])) (.str (units text)) where
  head rest := skip_of_head rfl _
  value n rest _ := by
    rw [List.cons_append, List.append_assoc, readValue, if_pos rfl]
    show (readChars .plain (text ++ 34 :: rest)).map _ = _
    rw [readChars_unescaped h]
    rfl

theorem Reads.true : Reads [116, 114, 117, 101] (.bool true) where
  head _ := skip_of_head rfl _
  value _ _ _ := rfl

theorem Reads.false : Reads [102, 97, 108, 115, 101] (.bool false) where
  head _ := skip_of_head rfl _
  value _ _ _ := rfl

-- The beginning of a member, up to the value.
def lead (key : List Nat) : List Nat := 34 :: (key ++ [34, 58, 32])

theorem skip_lead (key text : List Nat) : skip (lead key ++ text) = lead key ++ text :=
  skip_of_head rfl _

theorem readMembers_lead {key : List Nat} (hkey : Unescaped key) {text : List Nat}
    (htext : skip text = text) (n : Nat) :
    readMembers (n + 1) (lead key ++ text) = (readValue n text).bind fun v =>
      readNext 125 (readMembers n) (units key, v.1) v.2 := by
  have hchars : readChars .plain (key ++ [34, 58, 32] ++ text) =
      some (units key, 58 :: 32 :: text) := by
    have hread := readChars_unescaped hkey (58 :: 32 :: text)
    rwa [List.append_assoc]
  have hcolon : readColon (58 :: 32 :: text) = some text := by
    show some (skip text) = _
    rw [htext]
  rw [lead, List.cons_append, readMembers, hchars, Option.bind_some, hcolon, Option.bind_some]

theorem readNext_comma {α : Type} (close : Nat) (hclose : close ≠ 44)
    (more : List Nat → Option (List α × List Nat)) (v : α) {text : List Nat}
    (htext : skip text = text) :
    readNext close more v (44 :: 32 :: text) = (more text).map fun r => (v :: r.1, r.2) := by
  show (if 44 = close then _ else if 44 = 44 then (more (skip text)).map _ else none) = _
  rw [if_neg hclose.symm, if_pos rfl, htext]

end Reading

section Documents

-- A member, the text of its value, and the value.
structure Entry where
  key : List Nat
  text : List Nat
  value : Value

def Entry.Sound (e : Entry) : Prop := Unescaped e.key ∧ Reads e.text e.value

def Entry.member (e : Entry) : Member := (units e.key, e.value)

-- The members behind the first one, and the closing bracket.
def entriesText (tail : List Nat) : List Entry → List Nat
  | [] => 32 :: 125 :: tail
  | e :: es => 44 :: 32 :: (lead e.key ++ (e.text ++ entriesText tail es))

theorem entriesText_stops (tail : List Nat) (es : List Entry) : Stops (entriesText tail es) := by
  cases es with
  | nil => exact fun c hc => by cases hc; exact Or.inr rfl
  | cons e es => exact fun c hc => by cases hc; exact Or.inl rfl

-- They are read, and nothing else is.
theorem readNext_entries {tail : List Nat} {es : List Entry} (hes : ∀ e ∈ es, e.Sound) {n : Nat}
    (hn : es.length < n) (first : Member) :
    readNext 125 (readMembers n) first (entriesText tail es) =
      some (first :: es.map Entry.member, tail) := by
  induction es generalizing n first with
  | nil => rfl
  | cons e es ih =>
      obtain ⟨k, rfl⟩ : ∃ k, n = k + 2 := ⟨n - 2, by rw [List.length_cons] at hn; omega⟩
      obtain ⟨hkey, hvalue⟩ := hes e List.mem_cons_self
      have hrest := ih (fun e he => hes e (List.mem_cons_of_mem _ he)) (Nat.lt_of_succ_lt_succ hn)
        e.member
      rw [entriesText, readNext_comma 125 (by decide) _ first (skip_lead _ _),
        readMembers_lead hkey (hvalue.head _), hvalue.value k _ (entriesText_stops tail es),
        Option.bind_some]
      exact congrArg (Option.map _) hrest

-- A member in quotes, around a text that may be anything.
def quoted (key text : List Nat) : Entry where
  key := key
  text := 34 :: (text ++ [34])
  value := .str (units text)

theorem quoted_sound {key text : List Nat} (hkey : Unescaped key) (htext : Unescaped text) :
    (quoted key text).Sound := ⟨hkey, Reads.string htext⟩

def document (tail : List Nat) (first : Entry) (es : List Entry) : List Nat :=
  123 :: 32 :: (lead first.key ++ (first.text ++ entriesText tail es))

theorem length_entriesText (tail : List Nat) (es : List Entry) :
    es.length < (entriesText tail es).length := by
  induction es with
  | nil => exact Nat.succ_pos _
  | cons e es ih =>
      simp only [entriesText, List.length_cons, List.length_append]
      omega

theorem parse_document {first : Entry} (hfirst : first.Sound) (tail : List Nat)
    (es : List Entry) : ∃ n, es.length < n ∧ parse (document tail first es) =
      (readNext 125 (readMembers n) first.member (entriesText tail es)).bind fun r =>
        if skip r.2 = [] then some (.obj r.1) else none := by
  obtain ⟨hkey, hvalue⟩ := hfirst
  have hlen := length_entriesText tail es
  obtain ⟨k, hk⟩ : ∃ k, (document tail first es).length = k + 3 :=
    ⟨(document tail first es).length - 3, by
      simp only [document, lead, List.length_cons, List.length_append]
      omega⟩
  refine ⟨k + 1, ?_, ?_⟩
  · simp only [document, lead, List.length_cons, List.length_append] at hk
    omega
  · have hread : readMembers (k + 2) (lead first.key ++ (first.text ++ entriesText tail es)) =
        readNext 125 (readMembers (k + 1)) first.member (entriesText tail es) := by
      rw [readMembers_lead hkey (hvalue.head _), hvalue.value k _ (entriesText_stops tail es)]
      rfl
    have hskip : skip (32 :: (lead first.key ++ (first.text ++ entriesText tail es))) =
        lead first.key ++ (first.text ++ entriesText tail es) := skip_lead _ _
    have hbrace : skip (document tail first es) = document tail first es := skip_of_head rfl _
    rw [parse, hk, hbrace, document, readValue, if_neg (by decide), if_pos rfl, hskip, if_neg]
    · rw [hread]
      cases readNext 125 (readMembers (k + 1)) first.member (entriesText tail es) with
      | none => rfl
      | some r => rfl
    · exact nofun

theorem readNext_quoted {key : List Nat} (hkey : Unescaped key) (text tail : List Nat)
    (es : List Entry) (n : Nat) (first : Member) :
    readNext 125 (readMembers (n + 2)) first (entriesText tail (quoted key text :: es)) =
      (readChars .plain (text ++ 34 :: entriesText tail es)).bind fun r =>
        (readNext 125 (readMembers (n + 1)) (units key, .str r.1) r.2).map fun q =>
          (first :: q.1, q.2) := by
  have htext : lead (quoted key text).key ++ ((quoted key text).text ++ entriesText tail es) =
      lead key ++ 34 :: (text ++ 34 :: entriesText tail es) := by
    rw [quoted, List.cons_append, List.append_assoc]
    rfl
  rw [entriesText, htext, readNext_comma 125 (by decide) _ first (skip_lead _ _),
    readMembers_lead hkey (skip_of_head rfl _), readValue, if_pos rfl]
  cases readChars .plain (text ++ 34 :: entriesText tail es) with
  | none => rfl
  | some r => rfl

theorem readNext_head {α : Type} {close : Nat} {more : List Nat → Option (List α × List Nat)}
    {v : α} {text rest : List Nat} {vs : List α}
    (h : readNext close more v text = some (vs, rest)) : vs.head? = some v := by
  unfold readNext at h
  split at h
  · cases h
  · split at h
    · obtain ⟨rfl, -⟩ := Prod.mk.inj (Option.some.inj h)
      rfl
    · split at h
      · obtain ⟨r, -, heq⟩ := Option.map_eq_some_iff.mp h
        obtain ⟨rfl, -⟩ := Prod.mk.inj heq
        rfl
      · cases h

theorem parse_document_head {first : Entry} (hfirst : first.Sound) {tail : List Nat}
    {es : List Entry} {ms : List Member}
    (h : parse (document tail first es) = some (.obj ms)) : ms.head? = some first.member := by
  obtain ⟨n, -, hparse⟩ := parse_document hfirst tail es
  obtain ⟨⟨ms', rest⟩, hnext, hobj⟩ := Option.bind_eq_some_iff.mp (hparse.symm.trans h)
  split at hobj
  · obtain rfl := Value.obj.inj (Option.some.inj hobj)
    exact readNext_head hnext
  · cases hobj

-- What can follow neither a value nor a string.
def NoNext (key : List Nat) : Prop :=
  ∃ c ks, key = c :: ks ∧ isSpace c = false ∧ c ≠ 125 ∧ c ≠ 44

-- A string that runs over its end stops at the key of the next member.
theorem readNext_of_open {tail : List Nat} {e : Entry} (he : NoNext e.key) {es : List Entry}
    {us out : List Nat} (h : readChars .plain (entriesText tail (e :: es)) = some (us, out))
    (more : List Nat → Option (List Member × List Nat)) (first : Member) :
    readNext 125 more first out = none := by
  obtain ⟨c, ks, hkey, hspace, hbrace, hcomma⟩ := he
  have hopen : readChars .plain (entriesText tail (e :: es)) =
      some ([44, 32], e.key ++ [34, 58, 32] ++ (e.text ++ entriesText tail es)) := rfl
  obtain ⟨-, rfl⟩ := Prod.mk.inj (Option.some.inj (hopen.symm.trans h))
  rw [readNext, hkey, List.cons_append, List.cons_append, skip_of_head hspace]
  simp [hbrace, hcomma]

-- Between members that are sound, the document has the text in quotes as the
-- value of its member exactly when the text needs no escape.
theorem parse_quoted_iff {first : Entry} (hfirst : first.Sound) {key : List Nat}
    (hkey : Unescaped key) {e : Entry} (he : NoNext e.key) {es : List Entry}
    (hes : ∀ x ∈ e :: es, x.Sound) {tail : List Nat} (htail : skip tail = []) (text : List Nat) :
    parse (document tail first (quoted key text :: e :: es)) =
        some (.obj (first.member :: (quoted key text :: e :: es).map Entry.member)) ↔
      Unescaped text := by
  obtain ⟨n, hn, hparse⟩ := parse_document hfirst tail (quoted key text :: e :: es)
  rw [hparse]
  constructor
  · intro h
    obtain ⟨k, rfl⟩ : ∃ k, n = k + 2 := ⟨n - 2, by simp only [List.length_cons] at hn; omega⟩
    obtain ⟨⟨ms, rest⟩, hnext, hobj⟩ := Option.bind_eq_some_iff.mp h
    have hms : ms = first.member :: (quoted key text :: e :: es).map Entry.member := by
      split at hobj
      · exact Value.obj.inj (Option.some.inj hobj)
      · cases hobj
    rw [readNext_quoted hkey] at hnext
    obtain ⟨⟨us, out⟩, hchars, hmap⟩ := Option.bind_eq_some_iff.mp hnext
    obtain ⟨⟨ms', rest'⟩, hbehind, heq⟩ := Option.map_eq_some_iff.mp hmap
    have hms' : ms' = (quoted key text :: e :: es).map Entry.member :=
      (List.cons.inj ((Prod.mk.inj heq).1.trans hms)).2
    have hus : us = units text := by
      have hhead := readNext_head hbehind
      rw [hms'] at hhead
      exact (Value.str.inj (Prod.mk.inj (Option.some.inj hhead)).2).symm
    rcases readChars_eq_units hchars hus with htext | ⟨ws, hopen⟩
    · exact htext
    · rw [readNext_of_open he hopen] at hbehind
      cases hbehind
  · intro htext
    have hsound : ∀ x ∈ quoted key text :: e :: es, x.Sound := by
      intro x hx
      rcases List.mem_cons.mp hx with rfl | hx
      · exact quoted_sound hkey htext
      · exact hes x hx
    rw [readNext_entries hsound hn, Option.bind_some, if_pos htail]

end Documents

end WebFort.Library.JsonText
