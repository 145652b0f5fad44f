import WebFort.Library.Decimal

namespace WebFort.Library

-- A character that stands for itself between quotes.
def isPlain (b : UInt8) : Bool := decide (32 ≤ b) && decide (b < 127) && b != 34 && b != 92

abbrev JsonKey := { s : Bytes // s.all isPlain = true }

-- The values without fractions, strings and literals.
inductive Json
  | num (n : Nat)
  | arr (vs : List Json)
  | obj (ms : List (JsonKey × Json))

namespace Json

def readKey : Bytes → Option (JsonKey × Bytes)
  | 34 :: text =>
      match text.dropWhile isPlain with
      | 34 :: 58 :: rest => some (⟨text.takeWhile isPlain, List.all_takeWhile⟩, rest)
      | _ => none
  | _ => none

-- Digits without a leading zero.
def readNum (text : Bytes) : Option (Json × Bytes) :=
  let ds := text.takeWhile Decimal.isDigit
  if ds = [] ∨ (ds.head? = some 48 ∧ ds.length ≠ 1) then none
  else some (.num (Decimal.value ds), text.dropWhile Decimal.isDigit)

-- The first argument bounds the depth of the calls.
mutual

def read : Nat → Bytes → Option (Json × Bytes)
  | n + 1, b :: text =>
      if b = 91 then
        if text.head? = some 93 then some (.arr [], text.tail)
        else (readElems n text).map fun r => (.arr r.1, r.2)
      else if b = 123 then
        if text.head? = some 125 then some (.obj [], text.tail)
        else (readMembers n text).map fun r => (.obj r.1, r.2)
      else readNum (b :: text)
  | _, _ => none

def readElems : Nat → Bytes → Option (List Json × Bytes)
  | n + 1, text =>
      (read n text).bind fun r =>
        match r.2 with
        | 93 :: rest => some ([r.1], rest)
        | 44 :: rest => (readElems n rest).map fun q => (r.1 :: q.1, q.2)
        | _ => none
  | 0, _ => none

def readMembers : Nat → Bytes → Option (List (JsonKey × Json) × Bytes)
  | n + 1, text =>
      (readKey text).bind fun k =>
        (read n k.2).bind fun r =>
          match r.2 with
          | 125 :: rest => some ([(k.1, r.1)], rest)
          | 44 :: rest => (readMembers n rest).map fun q => ((k.1, r.1) :: q.1, q.2)
          | _ => none
  | 0, _ => none

end

def parse (text : Bytes) : Option Json :=
  match read text.length text with
  | some (v, []) => some v
  | _ => none

def printKey (k : JsonKey) : Bytes := 34 :: (k.1 ++ [34, 58])

mutual

def print : Json → Bytes
  | .num n => Decimal.digits n
  | .arr vs => 91 :: (printElems vs ++ [93])
  | .obj ms => 123 :: (printMembers ms ++ [125])

def printElems : List Json → Bytes
  | [] => []
  | [v] => print v
  | v :: w :: vs => print v ++ 44 :: printElems (w :: vs)

def printMembers : List (JsonKey × Json) → Bytes
  | [] => []
  | [(k, v)] => printKey k ++ print v
  | (k, v) :: m :: ms => printKey k ++ print v ++ 44 :: printMembers (m :: ms)

end

theorem printMembers_cons (k : JsonKey) (v : Json) (ms : List (JsonKey × Json)) :
    printMembers ((k, v) :: ms) =
      printKey k ++ print v ++ if ms = [] then [] else 44 :: printMembers ms := by
  cases ms with
  | nil => simp [printMembers]
  | cons m ms => simp [printMembers]

-- A value ends where no digit follows.
def Stops (rest : Bytes) : Prop := ∀ b ∈ rest.head?, Decimal.isDigit b = false

theorem stops_cons {b : UInt8} {rest : Bytes} (h : Decimal.isDigit b = false) :
    Stops (b :: rest) := by
  intro c hc
  rw [← Option.some.inj hc]
  exact h

theorem readNum_digits (n : Nat) {rest : Bytes} (h : Stops rest) :
    readNum (Decimal.digits n ++ rest) = some (.num n, rest) := by
  have htake := Decimal.takeWhile_digits (Decimal.digits_all n) h
  have hdrop : (Decimal.digits n ++ rest).dropWhile Decimal.isDigit = rest := by
    have hsplit := List.takeWhile_append_dropWhile (p := Decimal.isDigit)
      (l := Decimal.digits n ++ rest)
    rw [htake] at hsplit
    exact List.append_cancel_left hsplit
  have hstrict : ¬(Decimal.digits n = [] ∨
      ((Decimal.digits n).head? = some 48 ∧ (Decimal.digits n).length ≠ 1)) := by
    rintro (hnil | ⟨hzero, hlong⟩)
    · exact Decimal.digits_ne_nil n hnil
    · rcases Nat.eq_zero_or_pos n with rfl | hn
      · exact hlong rfl
      · exact Decimal.head_digits hn hzero
  simp only [readNum, htake, hdrop]
  rw [if_neg hstrict, Decimal.value_digits]

theorem readKey_printKey (k : JsonKey) (rest : Bytes) :
    readKey (printKey k ++ rest) = some (k, rest) := by
  obtain ⟨s, hs⟩ := k
  have hall := List.all_eq_true.mp hs
  have htake : (s ++ 34 :: 58 :: rest).takeWhile isPlain = s := by
    rw [List.takeWhile_append_of_pos hall]
    simp [isPlain]
  have hdrop : (s ++ 34 :: 58 :: rest).dropWhile isPlain = 34 :: 58 :: rest := by
    rw [List.dropWhile_append_of_pos hall]
    simp [isPlain]
  have htext : printKey ⟨s, hs⟩ ++ rest = 34 :: (s ++ 34 :: 58 :: rest) := by simp [printKey]
  rw [htext, readKey, hdrop]
  simp [htake]

-- A value begins with a bracket or a digit.
theorem head_print (v : Json) :
    ∃ b text, print v = b :: text ∧ b ≠ 93 ∧ b ≠ 125 ∧
      ((∃ n, v = .num n) → b ≠ 91 ∧ b ≠ 123) := by
  cases v with
  | num n =>
      cases hd : Decimal.digits n with
      | nil => exact absurd hd (Decimal.digits_ne_nil n)
      | cons b text =>
          have hdigit : Decimal.isDigit b = true := by
            have hall := Decimal.digits_all n
            rw [hd, List.all_cons, Bool.and_eq_true] at hall
            exact hall.1
          refine ⟨b, text, by rw [print, hd], ?_, ?_, fun _ => ⟨?_, ?_⟩⟩
          all_goals
            rintro rfl
            exact absurd hdigit (by decide)
  | arr vs => exact ⟨91, _, rfl, by decide, by decide, nofun⟩
  | obj ms => exact ⟨123, _, rfl, by decide, by decide, nofun⟩

theorem length_print (v : Json) : 0 < (print v).length := by
  obtain ⟨b, text, hb, -⟩ := head_print v
  rw [hb]
  exact Nat.succ_pos _

theorem printElems_head (v : Json) (vs : List Json) (rest : Bytes) :
    (printElems (v :: vs) ++ rest).head? ≠ some 93 := by
  obtain ⟨b, text, hb, hne, -⟩ := head_print v
  cases vs with
  | nil => simpa [printElems, hb] using hne
  | cons w vs => simpa [printElems, hb] using hne

theorem printMembers_head (m : JsonKey × Json) (ms : List (JsonKey × Json)) (rest : Bytes) :
    (printMembers (m :: ms) ++ rest).head? ≠ some 125 := by
  cases ms with
  | nil => simp [printMembers, printKey]
  | cons m' ms => simp [printMembers, printKey]

mutual

-- What is printed is read back, with fuel for every byte of it.
theorem read_print : ∀ (v : Json) (n : Nat) (rest : Bytes), (print v).length ≤ n → Stops rest →
    read n (print v ++ rest) = some (v, rest)
  | v, 0, rest, hn, _ => absurd hn (Nat.not_le.mpr (length_print v))
  | .num k, n + 1, rest, _, hrest => by
      obtain ⟨b, text, hb, -, -, hnum⟩ := head_print (.num k)
      obtain ⟨h91, h123⟩ := hnum ⟨k, rfl⟩
      have hread := readNum_digits k hrest
      rw [show Decimal.digits k = b :: text from hb] at hread
      rw [hb, List.cons_append, read, if_neg h91, if_neg h123]
      exact hread
  | .arr [], n + 1, rest, _, _ => rfl
  | .arr (v :: vs), n + 1, rest, hn, hrest => by
      have hlen : (printElems (v :: vs)).length + 1 ≤ n := by
        simp only [print, List.length_cons, List.length_append, List.length_nil] at hn
        omega
      have htext : print (.arr (v :: vs)) ++ rest =
          91 :: (printElems (v :: vs) ++ 93 :: rest) := by simp [print]
      rw [htext, read, if_pos rfl, if_neg (printElems_head v vs _), readElems_print v vs n rest hlen]
      rfl
  | .obj [], n + 1, rest, _, _ => rfl
  | .obj (m :: ms), n + 1, rest, hn, hrest => by
      have hlen : (printMembers (m :: ms)).length + 1 ≤ n := by
        simp only [print, List.length_cons, List.length_append, List.length_nil] at hn
        omega
      have htext : print (.obj (m :: ms)) ++ rest =
          123 :: (printMembers (m :: ms) ++ 125 :: rest) := by simp [print]
      rw [htext, read, if_neg (by decide), if_pos rfl, if_neg (printMembers_head m ms _),
        readMembers_print m ms n rest hlen]
      rfl

theorem readElems_print : ∀ (v : Json) (vs : List Json) (n : Nat) (rest : Bytes),
    (printElems (v :: vs)).length + 1 ≤ n →
    readElems n (printElems (v :: vs) ++ 93 :: rest) = some (v :: vs, rest)
  | v, [], n + 1, rest, hn => by
      have hv := read_print v n (93 :: rest) (Nat.le_of_succ_le_succ hn)
        (stops_cons (by decide))
      rw [readElems, printElems, hv]
      rfl
  | v, w :: vs, n + 1, rest, hn => by
      have hpos := length_print v
      simp only [printElems, List.length_append, List.length_cons] at hn
      have hv := read_print v n (44 :: (printElems (w :: vs) ++ 93 :: rest))
        (by omega) (stops_cons (by decide))
      have hvs := readElems_print w vs n rest (by omega)
      rw [readElems, printElems, List.append_assoc, List.cons_append, hv, Option.bind_some]
      show (readElems n (printElems (w :: vs) ++ 93 :: rest)).map _ = _
      rw [hvs]
      rfl

theorem readMembers_print : ∀ (m : JsonKey × Json) (ms : List (JsonKey × Json)) (n : Nat)
    (rest : Bytes), (printMembers (m :: ms)).length + 1 ≤ n →
    readMembers n (printMembers (m :: ms) ++ 125 :: rest) = some (m :: ms, rest)
  | (k, v), [], n + 1, rest, hn => by
      simp only [printMembers, List.length_append] at hn
      have hv := read_print v n (125 :: rest) (by omega) (stops_cons (by decide))
      rw [readMembers, printMembers, List.append_assoc, readKey_printKey, Option.bind_some, hv]
      rfl
  | (k, v), m :: ms, n + 1, rest, hn => by
      have hpos := length_print v
      simp only [printMembers, List.length_append, List.length_cons] at hn
      have hv := read_print v n (44 :: (printMembers (m :: ms) ++ 125 :: rest))
        (by omega) (stops_cons (by decide))
      have hms := readMembers_print m ms n rest (by omega)
      rw [readMembers, printMembers, List.append_assoc, List.append_assoc, List.cons_append,
        readKey_printKey, Option.bind_some, hv, Option.bind_some]
      show (readMembers n (printMembers (m :: ms) ++ 125 :: rest)).map _ = _
      rw [hms]
      rfl

end

theorem parse_print (v : Json) : parse (print v) = some v := by
  have hread := read_print v (print v).length [] (Nat.le_refl _) (by simp [Stops])
  rw [List.append_nil] at hread
  rw [parse, hread]

end Json

end WebFort.Library
