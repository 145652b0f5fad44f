import WebFort.Library.JsonText
import WebFort.Library.Percent.Units

namespace WebFort.Library.JsonText

open Percent (hexDigit isLead isTrail surrogate_range)

-- JSON.stringify on flat objects. A text is the list of its UTF-16 code units.

inductive Scalar
  | bool (b : Bool)
  | str (units : List Nat)
  deriving DecidableEq

namespace Scalar

def toValue : Scalar → Value
  | .bool b => .bool b
  | .str units => .str units

def ofValue : Value → Option Scalar
  | .bool b => some (.bool b)
  | .str units => some (.str units)
  | _ => none

@[simp] theorem ofValue_toValue (v : Scalar) : ofValue v.toValue = some v := by
  cases v <;> rfl

end Scalar

section Strings

def hexUnit (n : Nat) : Nat := if n < 10 then 48 + n else 87 + n

def escapeHex (c : Nat) : List Nat :=
  [92, 117, hexUnit (c / 4096), hexUnit (c / 256 % 16), hexUnit (c / 16 % 16), hexUnit (c % 16)]

def quoteUnit (c : Nat) : List Nat :=
  if c = 8 then [92, 98]
  else if c = 9 then [92, 116]
  else if c = 10 then [92, 110]
  else if c = 12 then [92, 102]
  else if c = 13 then [92, 114]
  else if c = 34 ∨ c = 92 then [92, c]
  else if c < 32 ∨ isLead c ∨ isTrail c then escapeHex c
  else [c]

-- A surrogate is written as it is only where it has its other half.
def quoteChars : List Nat → List Nat
  | [] => []
  | [c] => quoteUnit c
  | c :: d :: rest =>
      if isLead c ∧ isTrail d then c :: d :: quoteChars rest
      else quoteUnit c ++ quoteChars (d :: rest)

def quoteString (units : List Nat) : List Nat := 34 :: (quoteChars units ++ [34])

theorem hexDigit_hexUnit {n : Nat} (h : n < 16) : hexDigit (hexUnit n) = some n := by
  have hall : ∀ n < 16, hexDigit (hexUnit n) = some n := by decide
  exact hall n h

theorem readChars_self {c : Nat} (hquote : c ≠ 34) (hslash : c ≠ 92) (hcontrol : 32 ≤ c)
    (hunit : c < 0x10000) (text : List Nat) :
    readChars .plain (c :: text) = (readChars .plain text).map fun r => (c :: r.1, r.2) := by
  have hone : Percent.utf16 c = [c] := if_pos hunit
  rw [readChars, if_neg hquote, if_neg hslash, if_neg (by omega), hone]
  rfl

theorem readChars_escape {c u : Nat} (hu : c ≠ 117) (h : escapeUnit c = some u) (text : List Nat) :
    readChars .plain (92 :: c :: text) = (readChars .plain text).map fun r => (u :: r.1, r.2) := by
  rw [readChars, if_neg (by decide), if_pos rfl, readChars, if_neg hu, h]
  rfl

theorem readChars_hex {n value : Nat} (hn : n < 16) (further : Nat) (text : List Nat) :
    readChars (.hex (further + 1) value) (hexUnit n :: text) =
      readChars (.hex further (16 * value + n)) text := by
  rw [readChars, hexDigit_hexUnit hn]
  rfl

theorem readChars_lastHex {n value : Nat} (hn : n < 16) (text : List Nat) :
    readChars (.hex 0 value) (hexUnit n :: text) =
      (readChars .plain text).map fun r => ((16 * value + n) :: r.1, r.2) := by
  rw [readChars, hexDigit_hexUnit hn]
  rfl

theorem readChars_escapeHex {c : Nat} (hunit : c < 0x10000) (text : List Nat) :
    readChars .plain (escapeHex c ++ text) =
      (readChars .plain text).map fun r => (c :: r.1, r.2) := by
  have hvalue : 16 * (16 * (16 * (16 * 0 + c / 4096) + c / 256 % 16) + c / 16 % 16) + c % 16 = c := by
    omega
  have hopen : ∀ rest, readChars .plain (92 :: 117 :: rest) = readChars (.hex 3 0) rest := by
    intro rest
    rw [readChars, if_neg (by decide), if_pos rfl, readChars, if_pos rfl]
  simp only [escapeHex, List.cons_append, List.nil_append]
  rw [hopen, readChars_hex (by omega), readChars_hex (by omega), readChars_hex (by omega),
    readChars_lastHex (by omega), hvalue]

-- However a unit is written, it is read as itself.
theorem readChars_quoteUnit {c : Nat} (hunit : c < 0x10000) (text : List Nat) :
    readChars .plain (quoteUnit c ++ text) =
      (readChars .plain text).map fun r => (c :: r.1, r.2) := by
  unfold quoteUnit
  split
  case isTrue h => subst h; exact readChars_escape (by decide) rfl text
  split
  case isTrue h => subst h; exact readChars_escape (by decide) rfl text
  split
  case isTrue h => subst h; exact readChars_escape (by decide) rfl text
  split
  case isTrue h => subst h; exact readChars_escape (by decide) rfl text
  split
  case isTrue h => subst h; exact readChars_escape (by decide) rfl text
  split
  case isTrue h => rcases h with rfl | rfl <;> exact readChars_escape (by decide) rfl text
  case isFalse hmark =>
    obtain ⟨hquote, hslash⟩ := not_or.mp hmark
    split
    case isTrue => exact readChars_escapeHex hunit text
    case isFalse hplain => exact readChars_self hquote hslash (by omega) hunit text

theorem readChars_quoteChars (units : List Nat) (hunits : ∀ c ∈ units, c < 0x10000)
    (text : List Nat) :
    readChars .plain (quoteChars units ++ 34 :: text) = some (units, text) := by
  fun_induction quoteChars units with
  | case1 => rfl
  | case2 c =>
      rw [readChars_quoteUnit (hunits c List.mem_cons_self)]
      rfl
  | case3 c d rest hpair ih =>
      have hc := surrogate_range (Or.inl hpair.1)
      have hd := surrogate_range (Or.inr hpair.2)
      have hrest := ih fun e he => hunits e (List.mem_cons_of_mem _ (List.mem_cons_of_mem _ he))
      rw [List.cons_append, List.cons_append,
        readChars_self (by omega) (by omega) (by omega) (by omega),
        readChars_self (by omega) (by omega) (by omega) (by omega), hrest]
      rfl
  | case4 c d rest _ ih =>
      have hrest := ih fun e he => hunits e (List.mem_cons_of_mem _ he)
      rw [List.append_assoc, readChars_quoteUnit (hunits c List.mem_cons_self), hrest]
      rfl

end Strings

section Objects

abbrev FlatMember := List Nat × Scalar

def printScalar : Scalar → List Nat
  | .bool true => [116, 114, 117, 101]
  | .bool false => [102, 97, 108, 115, 101]
  | .str units => quoteString units

def printMember (m : FlatMember) : List Nat := quoteString m.1 ++ 58 :: printScalar m.2

def printRest : List FlatMember → List Nat
  | [] => [125]
  | m :: ms => 44 :: (printMember m ++ printRest ms)

def printObject : List FlatMember → List Nat
  | [] => [123, 125]
  | m :: ms => 123 :: (printMember m ++ printRest ms)

-- Strings of 16-bit code units.
def Scalar.IsText : Scalar → Prop
  | .bool _ => True
  | .str units => ∀ c ∈ units, c < 0x10000

def IsText (m : FlatMember) : Prop := (∀ c ∈ m.1, c < 0x10000) ∧ m.2.IsText

def FlatMember.toMember (m : FlatMember) : Member := (m.1, m.2.toValue)

theorem readChars_quoteString {units : List Nat} (hunits : ∀ c ∈ units, c < 0x10000)
    (text : List Nat) :
    readChars .plain ((quoteString units).tail ++ text) = some (units, text) := by
  have hread := readChars_quoteChars units hunits text
  simpa [quoteString] using hread

theorem readValue_scalar {v : Scalar} (hv : v.IsText) (n : Nat) (rest : List Nat) :
    readValue (n + 1) (printScalar v ++ rest) = some (v.toValue, rest) := by
  cases v with
  | bool b => cases b <;> rfl
  | str units =>
      have hread := readChars_quoteString hv rest
      show (readChars .plain ((quoteString units).tail ++ rest)).map _ = _
      rw [hread]
      rfl

theorem skip_printScalar (v : Scalar) (rest : List Nat) :
    skip (printScalar v ++ rest) = printScalar v ++ rest := by
  cases v with
  | bool b => cases b <;> rfl
  | str units => rfl

theorem readMembers_member {m : FlatMember} (hm : IsText m) (n : Nat) (rest : List Nat) :
    readMembers (n + 2) (printMember m ++ rest) =
      readNext 125 (readMembers (n + 1)) m.toMember rest := by
  obtain ⟨key, v⟩ := m
  obtain ⟨hkey, hv⟩ := hm
  have htext : printMember (key, v) ++ rest =
      34 :: ((quoteString key).tail ++ 58 :: (printScalar v ++ rest)) := by
    simp [printMember, quoteString]
  have hcolon : readColon (58 :: (printScalar v ++ rest)) = some (printScalar v ++ rest) :=
    congrArg some (skip_printScalar v rest)
  rw [htext, readMembers, readChars_quoteString hkey, Option.bind_some, hcolon, Option.bind_some,
    readValue_scalar hv]
  rfl

theorem readNext_rest {ms : List FlatMember} (hms : ∀ m ∈ ms, IsText m) {n : Nat}
    (hn : ms.length < n) (first : Member) :
    readNext 125 (readMembers n) first (printRest ms) =
      some (first :: ms.map FlatMember.toMember, []) := by
  induction ms generalizing n first with
  | nil => rfl
  | cons m ms ih =>
      obtain ⟨k, rfl⟩ : ∃ k, n = k + 2 := ⟨n - 2, by rw [List.length_cons] at hn; omega⟩
      have hrest := ih (fun m hm => hms m (List.mem_cons_of_mem _ hm)) (Nat.lt_of_succ_lt_succ hn)
        m.toMember
      show (readMembers (k + 2) (printMember m ++ printRest ms)).map _ = _
      rw [readMembers_member (hms m List.mem_cons_self), hrest]
      rfl

theorem length_printRest (ms : List FlatMember) : ms.length < (printRest ms).length := by
  induction ms with
  | nil => exact Nat.one_pos
  | cons m ms ih =>
      simp only [printRest, List.length_cons, List.length_append]
      omega

-- JSON.parse takes back what JSON.stringify wrote.
theorem parse_printObject (ms : List FlatMember) (hms : ∀ m ∈ ms, IsText m) :
    parse (printObject ms) = some (.obj (ms.map FlatMember.toMember)) := by
  cases ms with
  | nil => rfl
  | cons m ms =>
      have hlen := length_printRest ms
      obtain ⟨k, hk⟩ : ∃ k, (printObject (m :: ms)).length = k + 3 ∧ ms.length < k + 1 := by
        refine ⟨(printObject (m :: ms)).length - 3, ?_⟩
        simp only [printObject, printMember, quoteString, List.length_cons, List.length_append]
        omega
      have hread : readMembers (k + 2) (printMember m ++ printRest ms) =
          some ((m :: ms).map FlatMember.toMember, []) := by
        rw [readMembers_member (hms m List.mem_cons_self),
          readNext_rest (fun m hm => hms m (List.mem_cons_of_mem _ hm)) hk.2]
        rfl
      have hskip : skip (printMember m ++ printRest ms) = printMember m ++ printRest ms := rfl
      have hopen : skip (printObject (m :: ms)) = printObject (m :: ms) := rfl
      rw [parse, hk.1, hopen, printObject, readValue, if_neg (by decide), if_pos rfl, hskip, if_neg,
        hread]
      · rfl
      · exact fun h => absurd (Option.some.inj h) (by decide)

end Objects

end WebFort.Library.JsonText
