import WebFort.Credentials
import WebFort.Library.Decimal
import WebFort.Library.Fields

namespace WebFort

open Library

-- The globals of config.cpp, in the order in which both loaders test them.
inductive Setting
  | port
  | turntime
  | maxClients
  | ingameTime
  | autosave
  | secret
  deriving DecidableEq

def settings : List Setting :=
  [.port, .turntime, .maxClients, .ingameTime, .autosave, .secret]

namespace Setting

abbrev Value : Setting → Type
  | .port | .maxClients => Nat
  | .turntime => Int
  | .ingameTime | .autosave => Bool
  | .secret => Bytes

def key : Setting → Bytes
  | .port => ascii "PORT"
  | .turntime => ascii "TURNTIME"
  | .maxClients => ascii "MAX_CLIENTS"
  | .ingameTime => ascii "INGAME_TIME"
  | .autosave => ascii "AUTOSAVE_WHILE_IDLE"
  | .secret => ascii "SECRET"

def envName : Setting → Bytes
  | .port => ascii "WF_PORT"
  | .turntime => ascii "WF_TURNTIME"
  | .maxClients => ascii "WF_MAX_CLIENTS"
  | .ingameTime => ascii "WF_INGAME_TIME"
  | .autosave => ascii "WF_AUTOSAVE"
  | .secret => ascii "WF_SECRET"

end Setting

def Config.get : (k : Setting) → Config → k.Value
  | .port, c => c.port
  | .turntime, c => c.turntime
  | .maxClients, c => c.maxClients
  | .ingameTime, c => c.ingameTime
  | .autosave, c => c.autosaveWhileIdle
  | .secret, c => c.secret

def Config.set : (k : Setting) → k.Value → Config → Config
  | .port, v, c => { c with port := v }
  | .turntime, v, c => { c with turntime := v }
  | .maxClients, v, c => { c with maxClients := v }
  | .ingameTime, v, c => { c with ingameTime := v }
  | .autosave, v, c => { c with autosaveWhileIdle := v }
  | .secret, v, c => { c with secret := v }

def fields : Fields Setting.Value Config where
  get := Config.get
  set := Config.set
  get_set k v c := by cases k <;> rfl
  get_set_of_ne {k j} v c h := by
    cases k <;> cases j
    all_goals first
      | rfl
      | exact absurd rfl h

-- std::getline until the stream ends; a last line may lack its newline.
def getlines : Bytes → Bytes → List Bytes
  | [], line => if line = [] then [] else [line]
  | b :: f, line => if b = 10 then line :: getlines f [] else getlines f (line ++ [b])

def find (c : UInt8) (line : Bytes) : Option Nat := line.findIdx? (· == c)

def rfind (c : UInt8) (line : Bytes) : Option Nat :=
  (find c line.reverse).map fun i => line.length - 1 - i

def findFirstNotOf (c : UInt8) (line : Bytes) : Option Nat := line.findIdx? (· != c)

def substr (line : Bytes) (pos count : Nat) : Bytes := (line.drop pos).take count

def isspace (b : UInt8) : Bool := b == 32 || (decide (9 ≤ b) && decide (b ≤ 13))

-- std::stol for a 64 bit long: nothing where it throws.
def stol (str : Bytes) : Option Int :=
  (Decimal.scan (str.dropWhile isspace)).filter fun n =>
    decide (-2 ^ 63 ≤ n) && decide (n < 2 ^ 63)

def uint16 (n : Int) : Nat := (n % 2 ^ 16).toNat

def uint32 (n : Int) : Nat := (n % 2 ^ 32).toNat

-- What the two loaders store for a text.
def Setting.ofLine : (k : Setting) → Bytes → Option k.Value
  | .port, val => (stol val).map uint16
  | .turntime, val => (stol val).map int32
  | .maxClients, val => (stol val).map uint32
  | .ingameTime, val => some (val == ascii "YES")
  | .autosave, val => some (val == ascii "YES")
  | .secret, val => some val

def Setting.ofVar : (k : Setting) → Bytes → Option k.Value
  | .port, tmp => (stol tmp).map uint16
  | .turntime, tmp => (stol tmp).map int32
  | .maxClients, tmp => (stol tmp).map uint32
  | .ingameTime, tmp => (stol tmp).map (· != 0)
  | .autosave, tmp => (stol tmp).map (· != 0)
  | .secret, tmp => some tmp

-- The token after the key is read on every line, so it must be there.
def readLine (c : Config) (line : Bytes) : Option Config :=
  match find 91 line, rfind 93 line with
  | some b, some e =>
      if (findFirstNotOf 32 line).any (fun i => decide (i < b)) then some c
      else
        match split (substr line (b + 1) (e - 1)) 58 with
        | key :: val :: _ =>
            fields.assign (fun k => if key = k.key then some (k.ofLine val) else none) settings c
        | _ => none
  | _, _ => some c

-- A file that does not open is nothing.
def loadTextFile (f : Option Bytes) (c : Config) : Option (Bool × Config) :=
  match f with
  | none => some (false, c)
  | some f => ((getlines f []).foldlM readLine c).map fun c => (true, c)

def loadEnvVars (getenv : Bytes → Option Bytes) (c : Config) : Option (Bool × Config) :=
  (fields.assign (fun k => (getenv k.envName).map k.ofVar) settings c).map fun c => (true, c)

-- && does not call the second loader when the first one returns false.
def loadConfig (getenv : Bytes → Option Bytes) (f : Option Bytes) (c : Config) :
    Option (Bool × Config) :=
  (loadTextFile f c).bind fun r => if r.1 then loadEnvVars getenv r.2 else some r

-- What a text says, for texts that are a number the setting can hold.
def numberIn (lo hi : Int) (v : Bytes) : Option Int :=
  (Decimal.number? v).filter fun n => decide (lo ≤ n) && decide (n ≤ hi)

def Setting.varValue : (k : Setting) → Bytes → Option k.Value
  | .port, v => (numberIn 0 (2 ^ 16 - 1) v).map Int.toNat
  | .turntime, v => numberIn (-2 ^ 31) (2 ^ 31 - 1) v
  | .maxClients, v => (numberIn 0 (2 ^ 32 - 1) v).map Int.toNat
  | .ingameTime, v => (numberIn (-2 ^ 63) (2 ^ 63 - 1) v).map (· != 0)
  | .autosave, v => (numberIn (-2 ^ 63) (2 ^ 63 - 1) v).map (· != 0)
  | .secret, v => some v

def Setting.fileValue : (k : Setting) → Bytes → Option k.Value
  | .ingameTime, v => some (v == ascii "YES")
  | .autosave, v => some (v == ascii "YES")
  | k, v => k.varValue v

-- A line of the file without a setting, or with one in brackets.
inductive ConfigLine
  | comment (text : Bytes)
  | setting (indent : Nat) (key value tail : Bytes)

namespace ConfigLine

def text : ConfigLine → Bytes
  | comment text => text
  | setting indent key value tail =>
      List.replicate indent 32 ++ 91 :: (key ++ 58 :: (value ++ 93 :: tail))

def WellFormed : ConfigLine → Prop
  | comment text =>
      91 ∉ text ∨ 93 ∉ text ∨
        ∃ before after, text = before ++ 91 :: after ∧ 91 ∉ before ∧ ∃ b ∈ before, b ≠ 32
  | setting _ key value tail =>
      (∀ b ∈ key ++ value, b ≠ 58 ∧ b ≠ 93 ∧ b ≠ 0) ∧ 93 ∉ tail ∧
        ∀ k : Setting, key = k.key → (k.fileValue value).isSome

def sets (k : Setting) : ConfigLine → Bool
  | comment _ => false
  | setting _ key _ _ => decide (key = k.key)

def value (k : Setting) : ConfigLine → Option k.Value
  | comment _ => none
  | setting _ key value _ => if key = k.key then k.fileValue value else none

end ConfigLine

def lastLine (k : Setting) (file : List ConfigLine) : Option ConfigLine :=
  file.reverse.find? (ConfigLine.sets k)

-- The environment before the file, the file before what was there.
def precedence (getenv : Bytes → Option Bytes) (file : List ConfigLine) (c : Config)
    (k : Setting) : k.Value :=
  ((getenv k.envName).bind k.varValue).getD
    (((lastLine k file).bind (ConfigLine.value k)).getD (c.get k))

theorem stol_append {v w : Bytes} {n : Int} (hv : Decimal.number? v = some n)
    (hw : ∀ b ∈ w.head?, b = 93) (hlo : -2 ^ 63 ≤ n) (hhi : n < 2 ^ 63) :
    stol (v ++ w) = some n := by
  obtain ⟨b, u, rfl, hb⟩ := Decimal.head_of_number hv
  have hspace : isspace b = false := by
    rcases hb with rfl | rfl | hb
    · decide
    · decide
    · simp only [Decimal.isDigit, Bool.and_eq_true, decide_eq_true_eq] at hb
      simp only [isspace, Bool.or_eq_false_iff, Bool.and_eq_false_iff, beq_eq_false_iff_ne,
        decide_eq_false_iff_not]
      have h48 : 48 ≤ b.toNat := hb.1
      refine ⟨?_, Or.inr ?_⟩
      · rintro rfl
        exact absurd h48 (by decide)
      · intro h13
        have : b.toNat ≤ 13 := h13
        omega
  have hdigit : ∀ b ∈ w.head?, Decimal.isDigit b = false := by
    intro c hc
    rw [hw c hc]
    decide
  have hscan := Decimal.scan_append hv hdigit
  unfold stol
  rw [List.cons_append, List.dropWhile_cons_of_neg (by simp [hspace]), ← List.cons_append, hscan]
  refine Option.filter_eq_some_iff.mpr ⟨rfl, ?_⟩
  simp only [Bool.and_eq_true, decide_eq_true_eq]
  exact ⟨hlo, hhi⟩

theorem numberIn_eq_some {lo hi n : Int} {v : Bytes} :
    numberIn lo hi v = some n ↔ Decimal.number? v = some n ∧ lo ≤ n ∧ n ≤ hi := by
  simp [numberIn, Option.filter_eq_some_iff]

theorem stol_numberIn {lo hi n : Int} {v w : Bytes} (hv : numberIn lo hi v = some n)
    (hw : ∀ b ∈ w.head?, b = 93) (hlo : -2 ^ 63 ≤ lo) (hhi : hi < 2 ^ 63) :
    stol (v ++ w) = some n ∧ lo ≤ n ∧ n < hi + 1 := by
  obtain ⟨hn, hln, hnh⟩ := numberIn_eq_some.mp hv
  exact ⟨stol_append hn hw (by omega) (by omega), hln, by omega⟩

-- stol stops at the bracket that the count of substr lets in.
theorem ofVar_append {k : Setting} {v w : Bytes} {x : k.Value} (h : k.varValue v = some x)
    (hw : ∀ b ∈ w.head?, b = 93) (hk : k = .secret → w = []) : k.ofVar (v ++ w) = some x := by
  cases k with
  | port =>
      obtain ⟨n, hn, rfl⟩ := Option.map_eq_some_iff.mp h
      obtain ⟨hn, hlo, hhi⟩ := stol_numberIn hn hw (by decide) (by decide)
      rw [Setting.ofVar, hn, Option.map_some, uint16, Int.emod_eq_of_lt hlo (by omega)]
  | turntime =>
      obtain ⟨hn, hlo, hhi⟩ := stol_numberIn h hw (by decide) (by decide)
      rw [Setting.ofVar, hn, Option.map_some, int32_of_bounds hlo hhi]
  | maxClients =>
      obtain ⟨n, hn, rfl⟩ := Option.map_eq_some_iff.mp h
      obtain ⟨hn, hlo, hhi⟩ := stol_numberIn hn hw (by decide) (by decide)
      rw [Setting.ofVar, hn, Option.map_some, uint32, Int.emod_eq_of_lt hlo (by omega)]
  | ingameTime =>
      obtain ⟨n, hn, rfl⟩ := Option.map_eq_some_iff.mp h
      rw [Setting.ofVar, (stol_numberIn hn hw (by decide) (by decide)).1, Option.map_some]
  | autosave =>
      obtain ⟨n, hn, rfl⟩ := Option.map_eq_some_iff.mp h
      rw [Setting.ofVar, (stol_numberIn hn hw (by decide) (by decide)).1, Option.map_some]
  | secret =>
      rw [hk rfl, List.append_nil]
      exact h

theorem ofVar_of_varValue {k : Setting} {v : Bytes} {x : k.Value} (h : k.varValue v = some x) :
    k.ofVar v = some x := by
  have hself := ofVar_append h (w := []) (by simp) (fun _ => rfl)
  rwa [List.append_nil] at hself

-- The values that survive a bracket behind them.
def Setting.Tolerates : Setting → Bytes → Prop
  | .ingameTime, v => v ≠ ascii "YES"
  | .autosave, v => v ≠ ascii "YES"
  | .secret, _ => False
  | _, _ => True

theorem yes_append {v w : Bytes} (hw : ∀ b ∈ w.head?, b = 93) :
    ((v ++ w == ascii "YES") = (v == ascii "YES")) ↔ w = [] ∨ v ≠ ascii "YES" := by
  cases w with
  | nil => simp
  | cons b w =>
      have hbracket : v ++ b :: w ≠ ascii "YES" := by
        intro h
        have hmem : b ∈ ascii "YES" := h ▸ List.mem_append_right v List.mem_cons_self
        rw [hw b rfl] at hmem
        exact absurd hmem (by decide)
      rw [beq_false_of_ne hbracket]
      simp

theorem ofLine_append {k : Setting} {v w : Bytes} {x : k.Value} (h : k.fileValue v = some x)
    (hw : ∀ b ∈ w.head?, b = 93) :
    ∃ y, k.ofLine (v ++ w) = some y ∧ (y = x ↔ w = [] ∨ k.Tolerates v) := by
  cases k with
  | port => exact ⟨x, ofVar_append (k := .port) h hw nofun, by simp [Setting.Tolerates]⟩
  | turntime => exact ⟨x, ofVar_append (k := .turntime) h hw nofun, by simp [Setting.Tolerates]⟩
  | maxClients =>
      exact ⟨x, ofVar_append (k := .maxClients) h hw nofun, by simp [Setting.Tolerates]⟩
  | ingameTime =>
      obtain rfl := Option.some.inj h
      exact ⟨_, rfl, yes_append hw⟩
  | autosave =>
      obtain rfl := Option.some.inj h
      exact ⟨_, rfl, yes_append hw⟩
  | secret =>
      obtain rfl := Option.some.inj h
      exact ⟨_, rfl, by simp [Setting.Tolerates]⟩

theorem splitLoop_piece_cut (c : UInt8) (str cur : Bytes) (result : List Bytes) :
    ∃ more, splitLoop c str cur result =
      result ++ (cur ++ str.takeWhile fun b => b != c && b != 0) :: more := by
  induction str generalizing cur result with
  | nil => exact ⟨[], by simp [splitLoop]⟩
  | cons b str ih =>
      rw [splitLoop, List.takeWhile_cons]
      by_cases hnul : b = 0
      · exact ⟨[], by simp [hnul]⟩
      · rw [if_neg hnul]
        by_cases hc : b = c
        · obtain ⟨more, hmore⟩ := ih [] (result ++ [cur])
          rw [if_pos hc, hmore]
          exact ⟨str.takeWhile (fun b => b != c && b != 0) :: more, by simp [hc]⟩
        · obtain ⟨more, hmore⟩ := ih (cur ++ [b]) result
          rw [if_neg hc, hmore]
          exact ⟨more, by simp [hc, hnul]⟩

theorem split_setting {c : UInt8} (hc : c ≠ 0) {key value : Bytes}
    (hsafe : ∀ b ∈ key ++ value, b ≠ c ∧ b ≠ 0) (rest : Bytes) :
    ∃ more, split (key ++ c :: (value ++ rest)) c =
      key :: (value ++ rest.takeWhile fun b => b != c && b != 0) :: more := by
  have hkey : ∀ b ∈ key, b ≠ c ∧ b ≠ 0 := fun b hb => hsafe b (List.mem_append_left _ hb)
  have hvalue : ∀ b ∈ value, b ≠ c ∧ b ≠ 0 := fun b hb => hsafe b (List.mem_append_right _ hb)
  obtain ⟨more, hmore⟩ := splitLoop_piece_cut c rest value [key]
  refine ⟨more, ?_⟩
  rw [split, splitLoop_piece c hkey, splitLoop, if_neg hc, if_pos rfl, splitLoop_piece c hvalue]
  exact hmore

theorem find_eq_none {c : UInt8} {line : Bytes} (h : c ∉ line) : find c line = none := by
  rw [find, List.findIdx?_eq_none_iff]
  intro b hb
  exact beq_false_of_ne fun hbc => h (hbc ▸ hb)

theorem find_append {c : UInt8} {before : Bytes} (h : c ∉ before) (after : Bytes) :
    find c (before ++ c :: after) = some before.length := by
  have hbefore : before.findIdx? (· == c) = none := find_eq_none h
  unfold find
  rw [List.findIdx?_append, hbefore]
  simp [List.findIdx?_cons]

theorem rfind_append {c : UInt8} {after : Bytes} (h : c ∉ after) (before : Bytes) :
    rfind c (before ++ c :: after) = some before.length := by
  have hreverse : (before ++ c :: after).reverse = after.reverse ++ c :: before.reverse := by simp
  rw [rfind, hreverse, find_append (by simpa using h), Option.map_some, List.length_reverse,
    List.length_append, List.length_cons]
  congr 1
  omega

theorem rfind_eq_none {c : UInt8} {line : Bytes} (h : c ∉ line) : rfind c line = none := by
  rw [rfind, find_eq_none (by simpa using h), Option.map_none]

-- What e - 1, a count from b + 1, takes from behind the closing bracket.
def overrun (indent : Nat) (tail : Bytes) : Bytes := (93 :: tail).take indent

theorem substr_setting (indent : Nat) (inner tail : Bytes) :
    substr (List.replicate indent 32 ++ 91 :: (inner ++ 93 :: tail)) (indent + 1)
      (indent + 1 + inner.length - 1) = inner ++ overrun indent tail := by
  have hdrop : (List.replicate indent (32 : UInt8) ++ 91 :: (inner ++ 93 :: tail)).drop
      (indent + 1) = inner ++ 93 :: tail := by
    have hlength : (List.replicate indent (32 : UInt8)).length = indent := List.length_replicate
    rw [← hlength, List.drop_append]
    simp
  have hcount : indent + 1 + inner.length - 1 = inner.length + indent := by omega
  rw [substr, hdrop, hcount, List.take_append, List.take_of_length_le (by omega), overrun]
  congr 2
  omega

-- The values line assigns.
def ConfigLine.stored : ConfigLine → Fields.Source Setting.Value
  | comment _, _ => none
  | setting indent key value tail, k =>
      if key = k.key then
        some (k.ofLine (value ++ (overrun indent tail).takeWhile fun b => b != 58 && b != 0))
      else none

theorem assign_none (ks : List Setting) (c : Config) :
    fields.assign (fun _ => none) ks c = some c := by
  induction ks with
  | nil => rfl
  | cons k ks ih => exact ih

theorem readLine_comment {text : Bytes} (h : (ConfigLine.comment text).WellFormed) (c : Config) :
    readLine c text = some c := by
  unfold readLine
  rcases h with h | h | ⟨before, after, rfl, hbefore, b, hb, hspace⟩
  · rw [find_eq_none h]
  · rw [rfind_eq_none h]
    cases find 91 text <;> rfl
  · rw [find_append hbefore]
    cases hr : rfind 93 (before ++ 91 :: after) with
    | none => rfl
    | some e =>
        -- the text before the bracket is found before the bracket is
        obtain ⟨i, hi⟩ : ∃ i, before.findIdx? (· != 32) = some i := by
          refine Option.isSome_iff_exists.mp ?_
          rw [List.findIdx?_isSome]
          exact List.any_eq_true.mpr ⟨b, hb, by simp [hspace]⟩
        have hlt : i < before.length := (List.findIdx?_eq_some_iff_getElem.mp hi).1
        have hfirst : findFirstNotOf 32 (before ++ 91 :: after) = some i := by
          rw [findFirstNotOf, List.findIdx?_append, hi]
          rfl
        simp [hfirst, hlt]

section Bracketed

variable {indent : Nat} {key value tail : Bytes}

theorem find_bracketed (indent : Nat) (rest : Bytes) :
    find 91 (List.replicate indent 32 ++ 91 :: rest) = some indent := by
  have hspaces : (91 : UInt8) ∉ List.replicate indent (32 : UInt8) := by
    intro hmem
    exact absurd (List.eq_of_mem_replicate hmem) (by decide)
  rw [find_append hspaces, List.length_replicate]

theorem rfind_bracketed (htail : 93 ∉ tail) (indent : Nat) (inner : Bytes) :
    rfind 93 (List.replicate indent 32 ++ 91 :: (inner ++ 93 :: tail)) =
      some (indent + 1 + inner.length) := by
  have hsplit : List.replicate indent (32 : UInt8) ++ 91 :: (inner ++ 93 :: tail) =
      (List.replicate indent 32 ++ 91 :: inner) ++ 93 :: tail := by simp
  rw [hsplit, rfind_append htail]
  simp only [List.length_append, List.length_replicate, List.length_cons]
  congr 1
  omega

theorem findFirstNotOf_bracketed (indent : Nat) (rest : Bytes) :
    findFirstNotOf 32 (List.replicate indent 32 ++ 91 :: rest) = some indent := by
  have hnone : (List.replicate indent (32 : UInt8)).findIdx? (· != 32) = none := by
    rw [List.findIdx?_eq_none_iff]
    intro b hb
    simp [List.eq_of_mem_replicate hb]
  rw [findFirstNotOf, List.findIdx?_append, hnone]
  simp [List.findIdx?_cons]

theorem text_eq : (ConfigLine.setting indent key value tail).text =
    List.replicate indent 32 ++ 91 :: (key ++ 58 :: value ++ 93 :: tail) := by
  simp [ConfigLine.text]

theorem readLine_setting (h : (ConfigLine.setting indent key value tail).WellFormed) (c : Config) :
    readLine c (ConfigLine.setting indent key value tail).text =
      fields.assign (ConfigLine.setting indent key value tail).stored settings c := by
  obtain ⟨hsafe, htail, -⟩ := h
  obtain ⟨more, hmore⟩ := split_setting (c := 58) (by decide)
    (fun b hb => ⟨(hsafe b hb).1, (hsafe b hb).2.2⟩) (overrun indent tail)
  have htokens : split (substr (List.replicate indent 32 ++ 91 :: (key ++ 58 :: value ++ 93 :: tail))
      (indent + 1) (indent + 1 + (key ++ 58 :: value).length - 1)) 58 =
      key :: (value ++ (overrun indent tail).takeWhile fun b => b != 58 && b != 0) :: more := by
    rw [substr_setting, List.append_assoc]
    exact hmore
  simp only [readLine, text_eq, find_bracketed, rfind_bracketed htail, findFirstNotOf_bracketed,
    htokens, Option.any_some, lt_irrefl, decide_false]
  rfl

end Bracketed

theorem readLine_text {l : ConfigLine} (h : l.WellFormed) (c : Config) :
    readLine c l.text = fields.assign l.stored settings c := by
  cases l with
  | comment text => exact (readLine_comment h c).trans (assign_none settings c).symm
  | setting indent key value tail => exact readLine_setting h c

-- The lines whose value the loop reads as it stands in the brackets.
def ConfigLine.Exact (k : Setting) : ConfigLine → Prop
  | comment _ => True
  | setting indent _ value _ => indent = 0 ∨ k.Tolerates value

theorem overrun_head (indent : Nat) (tail : Bytes) (b : UInt8)
    (hb : b ∈ ((overrun indent tail).takeWhile fun b => b != 58 && b != 0).head?) : b = 93 := by
  cases indent with
  | zero => simp [overrun] at hb
  | succ indent => simpa [overrun] using hb.symm

theorem overrun_eq_nil (indent : Nat) (tail : Bytes) :
    (overrun indent tail).takeWhile (fun b => b != 58 && b != 0) = [] ↔ indent = 0 := by
  cases indent with
  | zero => simp [overrun]
  | succ indent => simp [overrun]

theorem stored_of_sets {k : Setting} {l : ConfigLine} (h : l.WellFormed)
    (hsets : l.sets k = true) :
    ∃ x y, l.value k = some x ∧ l.stored k = some (some y) ∧ (y = x ↔ l.Exact k) := by
  cases l with
  | comment text => cases hsets
  | setting indent key value tail =>
      have hkey : key = k.key := of_decide_eq_true hsets
      obtain ⟨x, hx⟩ := Option.isSome_iff_exists.mp (h.2.2 k hkey)
      obtain ⟨y, hy, hiff⟩ := ofLine_append hx (overrun_head indent tail)
      refine ⟨x, y, ?_, ?_, ?_⟩
      · rw [ConfigLine.value, if_pos hkey, hx]
      · rw [ConfigLine.stored, if_pos hkey, hy]
      · rw [hiff, overrun_eq_nil]
        rfl

theorem stored_of_not_sets {k : Setting} {l : ConfigLine} (hsets : l.sets k = false) :
    l.stored k = none := by
  cases l with
  | comment text => rfl
  | setting indent key value tail => exact if_neg (of_decide_eq_false hsets)

theorem stored_sets {k : Setting} {l : ConfigLine} (h : l.WellFormed) :
    l.stored k ≠ some none ∧ (l.stored k).join.isSome = l.sets k := by
  cases hsets : l.sets k with
  | false =>
      rw [stored_of_not_sets hsets]
      exact ⟨nofun, rfl⟩
  | true =>
      obtain ⟨x, y, -, hy, -⟩ := stored_of_sets h hsets
      rw [hy]
      exact ⟨nofun, rfl⟩

theorem nodup_settings : settings.Nodup := by decide

theorem mem_settings (k : Setting) : k ∈ settings := by cases k <;> decide

theorem loadTextFile_get {f : Bytes} {file : List ConfigLine}
    (hf : getlines f [] = file.map ConfigLine.text) (hfile : ∀ l ∈ file, l.WellFormed)
    (c : Config) :
    ∃ c', loadTextFile (some f) c = some (true, c') ∧
      ∀ k, c'.get k = ((lastLine k file).bind fun l => (l.stored k).join).getD (c.get k) := by
  have hfold : ∀ c, (file.map ConfigLine.text).foldlM readLine c =
      fields.assignAll ConfigLine.stored settings file c := by
    clear hf
    induction file with
    | nil => exact fun _ => rfl
    | cons l file ih =>
        intro c
        rw [List.map_cons, List.foldlM_cons, readLine_text (hfile l List.mem_cons_self),
          Fields.assignAll]
        congr 1
        funext u
        exact ih (fun l hl => hfile l (List.mem_cons_of_mem _ hl)) u
  obtain ⟨c', hc', hget⟩ := fields.assignAll_get nodup_settings mem_settings
    (fun l hl k => (stored_sets (hfile l hl)).1) c
  refine ⟨c', ?_, ?_⟩
  · rw [loadTextFile, hf, hfold, hc']
    rfl
  · intro k
    refine (hget k).trans ?_
    rw [Fields.findSome?_eq_find? fun l hl => (stored_sets (hfile l (List.mem_reverse.mp hl))).2]
    rfl

theorem loadEnvVars_get {getenv : Bytes → Option Bytes}
    (henv : ∀ (k : Setting) (v : Bytes), getenv k.envName = some v → (k.varValue v).isSome)
    (c : Config) :
    ∃ c', loadEnvVars getenv c = some (true, c') ∧
      ∀ k, c'.get k = ((getenv k.envName).bind k.varValue).getD (c.get k) := by
  have hread : ∀ k : Setting, (getenv k.envName).map k.ofVar =
      (getenv k.envName).map k.varValue := by
    intro k
    cases hv : getenv k.envName with
    | none => rfl
    | some v =>
        obtain ⟨x, hx⟩ := Option.isSome_iff_exists.mp (henv k v hv)
        rw [Option.map_some, Option.map_some, ofVar_of_varValue hx, hx]
  have hvals : ∀ k ∈ settings, (getenv k.envName).map k.varValue ≠ some none := by
    intro k _ hnone
    obtain ⟨v, hv, hx⟩ := Option.map_eq_some_iff.mp hnone
    exact absurd (henv k v hv) (by simp [hx])
  obtain ⟨c', hc', hget, -⟩ := fields.assign_get nodup_settings hvals c
  refine ⟨c', ?_, ?_⟩
  · simp only [loadEnvVars, hread, hc']
    rfl
  · intro k
    refine (hget k (mem_settings k)).trans ?_
    cases getenv k.envName <;> rfl

-- A file that is missing leaves nothing for the environment to change; in a
-- file, the last line of a setting that has no variable is read exactly.
def Overrides (getenv : Bytes → Option Bytes) (c : Config) : Option (List ConfigLine) → Prop
  | none => ∀ (k : Setting) (v : Bytes), getenv k.envName = some v → k.varValue v = some (c.get k)
  | some file =>
      ∀ k : Setting, getenv k.envName = none → ∀ l, lastLine k file = some l → l.Exact k

theorem precedence_some {getenv : Bytes → Option Bytes} {file : List ConfigLine} {c : Config}
    (hfile : ∀ l ∈ file, l.WellFormed) (k : Setting) :
    ((getenv k.envName).bind k.varValue).getD
        (((lastLine k file).bind fun l => (l.stored k).join).getD (c.get k)) =
      precedence getenv file c k ↔
    ((getenv k.envName).bind k.varValue = none → ∀ l, lastLine k file = some l → l.Exact k) := by
  unfold precedence
  cases (getenv k.envName).bind k.varValue with
  | some x => simp
  | none =>
      cases hlast : lastLine k file with
      | none => simp
      | some l =>
          have hl : l ∈ file := List.mem_reverse.mp (List.mem_of_find?_eq_some hlast)
          have hsets : l.sets k = true := List.find?_some hlast
          obtain ⟨x, y, hx, hy, hiff⟩ := stored_of_sets (hfile l hl) hsets
          simp [hx, hy, hiff]

-- The six settings after load_config, for any file of well-formed lines and
-- any environment of numbers the settings can hold.
theorem config_precedence_iff {getenv : Bytes → Option Bytes} {f : Option Bytes}
    {file : Option (List ConfigLine)} (c : Config)
    (hf : f.map (getlines · []) = file.map (List.map ConfigLine.text))
    (hfile : ∀ ls, file = some ls → ∀ l ∈ ls, l.WellFormed)
    (henv : ∀ (k : Setting) (v : Bytes), getenv k.envName = some v → (k.varValue v).isSome) :
    ∃ ok c', loadConfig getenv f c = some (ok, c') ∧
      ((∀ k, c'.get k = precedence getenv (file.getD []) c k) ↔ Overrides getenv c file) := by
  cases file with
  | none =>
      obtain rfl : f = none := Option.map_eq_none_iff.mp hf
      refine ⟨false, c, rfl, forall_congr' fun k => ?_⟩
      show c.get k = precedence getenv [] c k ↔ _
      cases hv : getenv k.envName with
      | none => simp [precedence, hv, lastLine]
      | some v =>
          obtain ⟨x, hx⟩ := Option.isSome_iff_exists.mp (henv k v hv)
          simp [precedence, hv, hx, eq_comm]
  | some ls =>
      obtain ⟨text, rfl, hls⟩ := Option.map_eq_some_iff.mp hf
      obtain ⟨c₁, hload, hget⟩ := loadTextFile_get hls (hfile ls rfl) c
      obtain ⟨c₂, henvload, henvget⟩ := loadEnvVars_get henv c₁
      refine ⟨true, c₂, ?_, forall_congr' fun k => ?_⟩
      · rw [loadConfig, hload]
        exact henvload
      · show _ = precedence getenv ls c k ↔ _
        rw [henvget k, hget k, precedence_some (hfile ls rfl) k]
        -- a variable that is set has a value
        have hset : (getenv k.envName).bind k.varValue = none ↔ getenv k.envName = none := by
          refine ⟨fun hnone => ?_, fun hnone => by rw [hnone]; rfl⟩
          cases hv : getenv k.envName with
          | none => rfl
          | some v =>
              rw [hv] at hnone
              exact absurd (henv k v hv) (by simp [show k.varValue v = none from hnone])
        rw [hset]

namespace Sample

def webfortTxt : Bytes := ascii "Webfort\n[PORT:8080]\n [TURNTIME:30] seconds\n[SECRET:key]"

def webfortLines : List ConfigLine :=
  [.comment (ascii "Webfort"),
    .setting 0 (ascii "PORT") (ascii "8080") [],
    .setting 1 (ascii "TURNTIME") (ascii "30") (ascii " seconds"),
    .setting 0 (ascii "SECRET") (ascii "key") []]

def wfPort (name : Bytes) : Option Bytes :=
  if name = ascii "WF_PORT" then some (ascii "9000") else none

theorem webfortLines_wellFormed : ∀ l ∈ webfortLines, l.WellFormed := by
  have hkey : ∀ (p : Setting → Prop), (∀ k ∈ settings, p k) → ∀ k, p k :=
    fun p hp k => hp k (mem_settings k)
  have hsafe : ∀ bs : Bytes, (bs.all fun b => b != 58 && (b != 93 && b != 0)) = true →
      ∀ b ∈ bs, b ≠ 58 ∧ b ≠ 93 ∧ b ≠ 0 := by
    intro bs hall b hb
    simpa using List.all_eq_true.mp hall b hb
  intro l hl
  simp only [webfortLines, List.mem_cons, List.not_mem_nil, or_false] at hl
  rcases hl with rfl | rfl | rfl | rfl
  · exact Or.inl (by decide)
  all_goals exact ⟨hsafe _ (by decide), by decide, hkey _ (by decide)⟩

theorem wfPort_number (k : Setting) (v : Bytes) (h : wfPort k.envName = some v) :
    (k.varValue v).isSome := by
  have hname : k.envName = ascii "WF_PORT" := by
    by_contra hne
    simp [wfPort, hne] at h
  have hk : k = .port := by
    cases k with
    | port => rfl
    | _ => exact absurd hname (by decide)
  subst hk
  obtain rfl : ascii "9000" = v := Option.some.inj h
  decide

theorem webfortLines_exact : Overrides wfPort Config.default (some webfortLines) := by
  intro k _ l hl
  have hexact : ∀ l ∈ webfortLines, l.sets k = true → l.Exact k := by
    intro l hl hsets
    simp only [webfortLines, List.mem_cons, List.not_mem_nil, or_false] at hl
    rcases hl with rfl | rfl | rfl | rfl
    · trivial
    · exact Or.inl rfl
    · have hname : ascii "TURNTIME" = k.key := of_decide_eq_true hsets
      have hk : k = .turntime := by
        cases k with
        | turntime => rfl
        | _ => exact absurd hname (by decide)
      exact hk ▸ Or.inr trivial
    · exact Or.inl rfl
  exact hexact l (List.mem_reverse.mp (List.mem_of_find?_eq_some hl)) (List.find?_some hl)

end Sample

theorem config_precedence_iff_sample :
    ∃ ok c', loadConfig Sample.wfPort (some Sample.webfortTxt) Config.default = some (ok, c') ∧
      ∀ k, c'.get k = precedence Sample.wfPort Sample.webfortLines Config.default k := by
  have hlines : (some Sample.webfortTxt).map (getlines · []) =
      (some Sample.webfortLines).map (List.map ConfigLine.text) := by decide
  obtain ⟨ok, c', hload, hiff⟩ := config_precedence_iff Config.default hlines
    (fun ls hls => Option.some.inj hls ▸ Sample.webfortLines_wellFormed) Sample.wfPort_number
  exact ⟨ok, c', hload, hiff.mpr Sample.webfortLines_exact⟩

-- Without data/init/webfort.txt the port stays 1234 whatever WF_PORT says; a
-- secret in an indented line keeps its closing bracket.
theorem missing_file_disables_variables :
    loadConfig Sample.wfPort none Config.default = some (false, Config.default) ∧
      precedence Sample.wfPort [] Config.default .port = 9000 ∧
      Config.default.get .port = 1234 ∧
      loadConfig (fun _ => none) (some (ascii " [SECRET:key]")) Config.default =
        some (true, { Config.default with secret := ascii "key]" }) := by
  exact ⟨rfl, by decide, rfl, rfl⟩

end WebFort
