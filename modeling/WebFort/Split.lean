import WebFort.Config

namespace WebFort

open Library

-- The buffer of a string: its bytes, and the NUL behind them.
def cString (s : Bytes) : Bytes := s ++ [0]

-- while(*str != c && *str) str++, in fuel passes. Nothing where the loop needs
-- more of them, or reads behind the buffer.
def skipPiece (mem : Bytes) (c : UInt8) : Nat → Nat → Option Nat
  | 0, _ => none
  | fuel + 1, str => (mem[str]?).bind fun b =>
      if b ≠ c ∧ b ≠ 0 then skipPiece mem c fuel (str + 1) else some str

-- The do loop with begin at start. *str++ reads at str and leaves str behind it.
def splitFrom (mem : Bytes) (c : UInt8) : Nat → Nat → List Bytes → Option (List Bytes)
  | 0, _, _ => none
  | fuel + 1, start, result =>
      (skipPiece mem c (fuel + 1) start).bind fun str =>
        let result := result ++ [substr mem start (str - start)]
        (mem[str]?).bind fun b =>
          if 0 ≠ b then splitFrom mem c fuel (str + 1) result else some result

-- The bytes that the inner loop passes over.
def inPiece (c b : UInt8) : Bool := b != c && b != 0

theorem inPiece_iff {c b : UInt8} : inPiece c b = true ↔ b ≠ c ∧ b ≠ 0 := by simp [inPiece]

section Buffer

variable {c : UInt8} {s : Bytes} {fuel : Nat}

theorem getElem?_cString (before s : Bytes) :
    (cString (before ++ s))[before.length]? = some (s.headD 0) := by
  rw [cString, List.append_assoc, List.getElem?_append_right (Nat.le_refl _), Nat.sub_self]
  cases s <;> rfl

theorem substr_cString (before piece rest : Bytes) :
    substr (cString (before ++ (piece ++ rest))) before.length piece.length = piece := by
  rw [cString, substr, List.append_assoc, List.drop_left, List.append_assoc, List.take_left]

theorem skipPiece_eq (h : s.length < fuel) (before : Bytes) :
    skipPiece (cString (before ++ s)) c fuel before.length =
      some (before.length + (s.takeWhile (inPiece c)).length) := by
  induction s generalizing fuel before with
  | nil =>
      obtain ⟨fuel, rfl⟩ := Nat.exists_eq_add_one_of_ne_zero (Nat.ne_of_gt h)
      rw [skipPiece, getElem?_cString]
      simp
  | cons b s ih =>
      obtain ⟨fuel, rfl⟩ := Nat.exists_eq_add_one_of_ne_zero (Nat.ne_of_gt (Nat.zero_lt_of_lt h))
      rw [skipPiece, getElem?_cString, Option.bind_some, List.headD_cons]
      by_cases hb : b ≠ c ∧ b ≠ 0
      · -- one byte on, it is the same buffer cut one byte later
        have hbuffer : before ++ b :: s = (before ++ [b]) ++ s := by simp
        have hstep := ih (Nat.lt_of_succ_lt_succ h) (before ++ [b])
        rw [List.length_append, List.length_singleton] at hstep
        rw [if_pos hb, hbuffer, hstep, List.takeWhile_cons_of_pos (inPiece_iff.mpr hb),
          List.length_cons]
        congr 1
        omega
      · rw [if_neg hb, List.takeWhile_cons_of_neg (fun hin => hb (inPiece_iff.mp hin))]
        rfl

-- What follows the piece is the end of the string, a NUL or the separator.
theorem splitFrom_eq (h : s.length < fuel) (before : Bytes) (result : List Bytes) :
    splitFrom (cString (before ++ s)) c fuel before.length result =
      some (splitLoop c s [] result) := by
  induction fuel generalizing s before result with
  | zero => omega
  | succ fuel ih =>
      obtain ⟨piece, rest, hpiece, hrest⟩ : ∃ piece rest, piece = s.takeWhile (inPiece c) ∧
          rest = s.dropWhile (inPiece c) := ⟨_, _, rfl, rfl⟩
      have hs : s = piece ++ rest := by
        rw [hpiece, hrest, List.takeWhile_append_dropWhile]
      have hsafe : ∀ b ∈ piece, b ≠ c ∧ b ≠ 0 :=
        fun b hb => inPiece_iff.mp (List.mem_takeWhile_imp (hpiece ▸ hb))
      have hread : (cString (before ++ s))[before.length + piece.length]? = some (rest.headD 0) := by
        have hget := getElem?_cString (before ++ piece) rest
        rwa [List.append_assoc, ← hs, List.length_append] at hget
      rw [splitFrom, skipPiece_eq h, ← hpiece, Option.bind_some, Nat.add_sub_cancel_left]
      simp only [hread, Option.bind_some]
      rw [hs, substr_cString, splitLoop_piece c hsafe, List.nil_append]
      cases hcase : rest with
      | nil => simp [splitLoop]
      | cons b rest' =>
          have hb : ¬(b ≠ c ∧ b ≠ 0) := by
            intro hb
            have hhead := List.head?_dropWhile_not (inPiece c) s
            rw [← hrest, hcase] at hhead
            simp [inPiece_iff.mpr hb] at hhead
          rw [List.headD_cons, splitLoop]
          by_cases hnul : b = 0
          · rw [if_pos hnul, if_neg (not_not.mpr hnul.symm)]
          · have hc : b = c := not_not.mp fun hc => hb ⟨hc, hnul⟩
            have hlength : rest'.length < fuel := by
              have hcount := congrArg List.length hs
              rw [hcase, List.length_append, List.length_cons] at hcount
              omega
            have hnext := ih hlength (before ++ (piece ++ [b])) (result ++ [piece])
            rw [if_neg hnul, if_pos hc, if_pos (Ne.symm hnul), ← hnext]
            simp [Nat.add_assoc]

end Buffer

-- split as a function of the string, for strings without NUL
theorem splitLoop_eq (c : UInt8) {s : Bytes} (hs : 0 ∉ s) (cur : Bytes) (result : List Bytes) :
    splitLoop c s cur result = result ++ (s.splitOn c).modifyHead (cur ++ ·) := by
  induction s generalizing cur result with
  | nil => simp [splitLoop]
  | cons b s ih =>
      have hnul : b ≠ 0 := fun h => hs (h ▸ List.mem_cons_self)
      have htail : 0 ∉ s := fun h => hs (List.mem_cons_of_mem _ h)
      rw [splitLoop, if_neg hnul, List.splitOn_cons_eq_if_modifyHead]
      by_cases hbc : b = c
      · rw [if_pos hbc, if_pos (beq_iff_eq.mpr hbc), ih htail]
        cases s.splitOn c <;> simp
      · rw [if_neg hbc, if_neg (mt beq_iff_eq.mp hbc), ih htail]
        cases s.splitOn c <;> simp

theorem split_eq_splitOn (c : UInt8) {s : Bytes} (hs : 0 ∉ s) : split s c = s.splitOn c := by
  rw [split, splitLoop_eq c hs, List.nil_append]
  cases s.splitOn c <;> rfl

section Pieces

variable {α : Type*} [BEq α]

theorem length_splitOn (s : List α) (c : α) : (s.splitOn c).length = s.count c + 1 := by
  induction s with
  | nil => rfl
  | cons b s ih =>
      rw [List.splitOn_cons_eq_if_modifyHead, List.count_cons]
      split
      · rw [List.length_cons, ih]
      · rw [List.length_modifyHead, ih, Nat.add_zero]

theorem not_mem_of_mem_splitOn [LawfulBEq α] {s piece : List α} {c : α} (h : piece ∈ s.splitOn c) :
    c ∉ piece := by
  induction s generalizing piece with
  | nil =>
      obtain rfl := List.mem_singleton.mp h
      exact List.not_mem_nil
  | cons b s ih =>
      rw [List.splitOn_cons_eq_if_modifyHead] at h
      split at h
      · rcases List.mem_cons.mp h with rfl | h
        · exact List.not_mem_nil
        · exact ih h
      next hbc =>
        cases hpieces : s.splitOn c with
        | nil => exact absurd hpieces (List.splitOn_ne_nil c s)
        | cons first pieces =>
            rw [hpieces] at h ih
            rcases List.mem_cons.mp h with rfl | h
            · intro hmem
              rcases List.mem_cons.mp hmem with rfl | hmem
              · exact hbc BEq.rfl
              · exact ih List.mem_cons_self hmem
            · exact ih (List.mem_cons_of_mem _ h)

end Pieces

-- For every string, also one with a NUL inside
theorem split_ne_nil (s : Bytes) (c : UInt8) : split s c ≠ [] := by
  obtain ⟨more, hmore⟩ := splitLoop_piece_cut c s [] []
  rw [split, hmore]
  simp

-- The tokens of a line that load_text_file does not skip.
def lineTokens (line : Bytes) : Option (List Bytes) :=
  match find 91 line, rfind 93 line with
  | some b, some e =>
      if (findFirstNotOf 32 line).any (fun i => decide (i < b)) then none
      else some (split (substr line (b + 1) (e - 1)) 58)
  | _, _ => none

-- The six comparisons of key, and what each of them stores.
def assigns (key val : Bytes) : Fields.Source Setting.Value :=
  fun k => if key = k.key then some (k.ofLine val) else none

-- tokens[1] is read whatever the key is.
def readTokens (c : Config) : List Bytes → Option Config
  | key :: val :: _ => fields.assign (assigns key val) settings c
  | _ => none

theorem readLine_eq (c : Config) (line : Bytes) :
    readLine c line = (lineTokens line).elim (some c) (readTokens c) := by
  unfold readLine lineTokens
  cases find 91 line with
  | none => rfl
  | some b =>
      cases rfind 93 line with
      | none => rfl
      | some e =>
          dsimp only
          split
          · rfl
          · rw [Option.elim_some]
            unfold readTokens
            rfl

-- split undoes join, and the first piece is there for both of its callers.
theorem split_undoes_join {s : Bytes} (c : UInt8) (hs : 0 ∉ s) :
    (∀ fuel, s.length < fuel → splitFrom (cString s) c fuel 0 [] = some (split s c)) ∧
      (split s c).length = s.count c + 1 ∧ (∀ piece ∈ split s c, c ∉ piece) ∧
      [c].intercalate (split s c) = s ∧ split s c ≠ [] ∧
      (∀ (ep : Endpoint) (hdl : Handle), (path ep hdl)[0]? = some (pathNick ep hdl)) ∧
      ∀ line tokens, lineTokens line = some tokens → ∃ key, tokens[0]? = some key := by
  have hpieces := split_eq_splitOn c hs
  refine ⟨fun fuel hfuel => splitFrom_eq hfuel [] [], ?_, ?_, ?_, split_ne_nil s c, ?_, ?_⟩
  · rw [hpieces, length_splitOn]
  · rw [hpieces]
    exact fun piece hpiece => not_mem_of_mem_splitOn hpiece
  · rw [hpieces, List.intercalate_splitOn]
  · intro ep hdl
    have hpath := split_ne_nil ((ep hdl).resource.drop 1) 47
    unfold pathNick path
    cases hsplit : split ((ep hdl).resource.drop 1) 47 with
    | nil => exact absurd hsplit hpath
    | cons nick rest => rfl
  · intro line tokens htokens
    unfold lineTokens at htokens
    split at htokens
    next b e _ _ =>
      split at htokens
      · cases htokens
      · obtain rfl := Option.some.inj htokens
        cases hsplit : split (substr line (b + 1) (e - 1)) 58 with
        | nil => exact absurd hsplit (split_ne_nil _ _)
        | cons key rest => exact ⟨key, rfl⟩
    · cases htokens

theorem split_undoes_join_sample :
    splitFrom (cString (ascii "/a//b/")) 47 8 0 [] =
        some [[], ascii "a", [], ascii "b", []] ∧
      [47].intercalate (split (ascii "/a//b/") 47) = ascii "/a//b/" := by
  have hsplit := split_undoes_join (s := ascii "/a//b/") 47 (by decide)
  exact ⟨hsplit.1 8 (by decide), hsplit.2.2.2.1⟩

end WebFort
