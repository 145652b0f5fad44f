import WebFort.Split

namespace WebFort

open Library

theorem nul_not_mem_of_mem_splitLoop {c : UInt8} {str cur : Bytes} {result : List Bytes}
    (hcur : 0 ∉ cur) (hresult : ∀ piece ∈ result, 0 ∉ piece) {piece : Bytes}
    (h : piece ∈ splitLoop c str cur result) : 0 ∉ piece := by
  have hdone : ∀ piece ∈ result ++ [cur], 0 ∉ piece := by
    intro piece hpiece
    rcases List.mem_append.mp hpiece with hpiece | hpiece
    · exact hresult piece hpiece
    · rwa [List.mem_singleton.mp hpiece]
  induction str generalizing cur result with
  | nil => exact hdone piece h
  | cons b str ih =>
      rw [splitLoop] at h
      split at h
      · exact hdone piece h
      next hnul =>
        split at h
        · apply ih List.not_mem_nil hdone h
          intro piece hpiece
          rcases List.mem_append.mp hpiece with hpiece | hpiece
          · exact hdone piece hpiece
          · rw [List.mem_singleton.mp hpiece]
            exact List.not_mem_nil
        · have hnext : 0 ∉ cur ++ [b] := by
            simp [hcur, Ne.symm hnul]
          apply ih hnext hresult h
          intro piece hpiece
          rcases List.mem_append.mp hpiece with hpiece | hpiece
          · exact hresult piece hpiece
          · rwa [List.mem_singleton.mp hpiece]

-- c_str() ends at the first NUL, so no piece has one.
theorem nul_not_mem_of_mem_split {s piece : Bytes} {c : UInt8} (h : piece ∈ split s c) :
    0 ∉ piece :=
  nul_not_mem_of_mem_splitLoop List.not_mem_nil (List.forall_mem_nil _) h

theorem lineTokens_bracketed {tail : Bytes} (htail : 93 ∉ tail) (indent : Nat) (inner : Bytes) :
    lineTokens (List.replicate indent 32 ++ 91 :: (inner ++ 93 :: tail)) =
      some (split (inner ++ overrun indent tail) 58) := by
  simp only [lineTokens, find_bracketed, rfind_bracketed htail, findFirstNotOf_bracketed,
    Option.any_some, lt_irrefl, decide_false]
  rw [substr_setting]
  rfl

theorem readTokens_two (c : Config) (key value : Bytes) (more : List Bytes) :
    readTokens c (key :: value :: more) = readTokens c [key, value] := rfl

section Setting

variable {indent : Nat} {key value tail : Bytes}

theorem lineTokens_setting (htail : 93 ∉ tail) :
    lineTokens (ConfigLine.setting indent key value tail).text =
      some (split (key ++ 58 :: (value ++ overrun indent tail)) 58) := by
  rw [text_eq, lineTokens_bracketed htail, List.append_assoc, List.cons_append]

-- The first two tokens as they stand in the brackets: for the second one there
-- may be nothing taken from behind them.
theorem lineTokens_setting_iff (hcolon : 58 ∉ key ++ value) (htail : 93 ∉ tail) :
    (∃ more, lineTokens (ConfigLine.setting indent key value tail).text =
        some (key :: value :: more)) ↔ indent = 0 ∧ 0 ∉ key ++ value := by
  rw [lineTokens_setting htail]
  constructor
  · rintro ⟨more, htokens⟩
    have hpieces := Option.some.inj htokens
    have hnul : 0 ∉ key ++ value := by
      have hkey : 0 ∉ key := nul_not_mem_of_mem_split (hpieces ▸ List.mem_cons_self)
      have hvalue : 0 ∉ value :=
        nul_not_mem_of_mem_split (hpieces ▸ List.mem_cons_of_mem _ List.mem_cons_self)
      exact fun h => (List.mem_append.mp h).elim hkey hvalue
    have hsafe : ∀ b ∈ key ++ value, b ≠ 58 ∧ b ≠ 0 :=
      fun b hb => ⟨fun h => hcolon (h ▸ hb), fun h => hnul (h ▸ hb)⟩
    obtain ⟨more', hmore⟩ := split_setting (by decide) hsafe (overrun indent tail)
    rw [hmore] at hpieces
    have hvalue : value ++ (overrun indent tail).takeWhile (fun b => b != 58 && b != 0) = value :=
      (List.cons.inj (List.cons.inj hpieces).2).1
    refine ⟨?_, hnul⟩
    exact (overrun_eq_nil indent tail).mp (List.append_right_eq_self.mp hvalue)
  · rintro ⟨rfl, hnul⟩
    have hsafe : ∀ b ∈ key ++ value, b ≠ 58 ∧ b ≠ 0 :=
      fun b hb => ⟨fun h => hcolon (h ▸ hb), fun h => hnul (h ▸ hb)⟩
    obtain ⟨more, hmore⟩ := split_setting (by decide) hsafe (overrun 0 tail)
    refine ⟨more, ?_⟩
    rw [hmore, (overrun_eq_nil 0 tail).mpr rfl, List.append_nil]

end Setting

-- The first two tokens of a line are what its brackets say, and so is what it
-- stores, when the bracket stands in column 0. A line that begins with
-- anything else than spaces is ignored.
theorem setting_line_iff {indent : Nat} {key value tail : Bytes}
    (hkey : ∀ b ∈ key, b ≠ 58 ∧ b ≠ 91 ∧ b ≠ 93) (hvalue : ∀ b ∈ value, b ≠ 58 ∧ b ≠ 91 ∧ b ≠ 93)
    (htail : 93 ∉ tail) :
    (((∃ more, lineTokens (ConfigLine.setting indent key value tail).text =
          some (key :: value :: more)) ∧
        ∀ c, readLine c (ConfigLine.setting indent key value tail).text =
          readTokens c [key, value]) ↔ indent = 0 ∧ 0 ∉ key ++ value) ∧
      ∀ before after c, 91 ∉ before → (∃ b ∈ before, b ≠ 32) →
        readLine c (before ++ 91 :: after) = some c := by
  have hcolon : 58 ∉ key ++ value := by
    intro h
    rcases List.mem_append.mp h with h | h
    · exact (hkey 58 h).1 rfl
    · exact (hvalue 58 h).1 rfl
  have htokens : (∃ more, lineTokens (ConfigLine.setting indent key value tail).text =
      some (key :: value :: more)) ↔ indent = 0 ∧ 0 ∉ key ++ value :=
    lineTokens_setting_iff hcolon htail
  refine ⟨⟨fun h => htokens.mp h.1, fun h => ⟨htokens.mpr h, ?_⟩⟩, ?_⟩
  · obtain ⟨more, hmore⟩ := htokens.mpr h
    intro c
    rw [readLine_eq, hmore, Option.elim_some, readTokens_two]
  · intro before after c hbefore hspace
    apply readLine_comment
    exact Or.inr (Or.inr ⟨before, after, rfl, hbefore, hspace⟩)

theorem setting_line_iff_sample :
    (∃ more, lineTokens (ascii "[SECRET:key] : [old") =
        some (ascii "SECRET" :: ascii "key" :: more)) ∧
      readLine Config.default (ascii "# [SECRET:key]") = some Config.default := by
  have hsafe : ∀ s : Bytes, (s.all fun b => decide (b ≠ 58 ∧ b ≠ 91 ∧ b ≠ 93)) = true →
      ∀ b ∈ s, b ≠ 58 ∧ b ≠ 91 ∧ b ≠ 93 :=
    fun s h b hb => of_decide_eq_true (List.all_eq_true.mp h b hb)
  have hread := @setting_line_iff 0 (ascii "SECRET") (ascii "key") (ascii " : [old")
    (hsafe _ (by decide)) (hsafe _ (by decide)) (by decide)
  exact ⟨(hread.1.mpr ⟨rfl, by decide⟩).1,
    hread.2 (ascii "# ") (ascii "SECRET:key]") Config.default (by decide) ⟨35, by decide, by decide⟩⟩

-- One space before the bracket, and the second token has one byte more.
theorem indented_setting_keeps_bracket :
    lineTokens (ConfigLine.setting 1 (ascii "SECRET") (ascii "key") []).text =
        some [ascii "SECRET", ascii "key]"] ∧
      readLine Config.default (ConfigLine.setting 1 (ascii "SECRET") (ascii "key") []).text =
        some { Config.default with secret := ascii "key]" } ∧
      readLine Config.default (ConfigLine.setting 0 (ascii "SECRET") (ascii "key") []).text =
        some { Config.default with secret := ascii "key" } := by
  refine ⟨?_, ?_, ?_⟩ <;> rfl

end WebFort
