import WebFort.ConfigLines
import WebFort.Lifecycle

namespace WebFort

open Library

-- A well-formed setting of a key that the loader knows.
def IsSetting (line : Bytes) : Prop :=
  ∃ indent key value tail, line = (ConfigLine.setting indent key value tail).text ∧
    (ConfigLine.setting indent key value tail).WellFormed ∧ ∃ k : Setting, key = k.key

-- A line without brackets behind spaces, or one with a colon behind a key that
-- no setting has, in what the substr of the loader takes from it.
def Ignorable (line : Bytes) : Prop :=
  (ConfigLine.comment line).WellFormed ∨
    ∃ indent body tail key rest,
      line = List.replicate indent 32 ++ 91 :: (body ++ 93 :: tail) ∧ 93 ∉ tail ∧
        body ++ overrun indent tail = key ++ 58 :: rest ∧ (∀ b ∈ key, b ≠ 58 ∧ b ≠ 0) ∧
          ∀ k : Setting, key ≠ k.key

-- No index beyond the tokens and no exception on the way through load_config,
-- and nothing stored for a line that is no setting.
def Harmless (getenv : Bytes → Option Bytes) (f : Bytes) : Prop :=
  (∀ c, loadConfig getenv (some f) c ≠ none) ∧
    ∀ line ∈ getlines f [], ¬IsSetting line → ∀ c, readLine c line = some c

theorem comment_or_bracketed (line : Bytes) :
    (ConfigLine.comment line).WellFormed ∨
      ∃ indent body tail, line = List.replicate indent 32 ++ 91 :: (body ++ 93 :: tail) ∧
        93 ∉ tail := by
  by_cases hopen : 91 ∈ line
  case neg => exact Or.inl (Or.inl hopen)
  by_cases hclose : 93 ∈ line
  case neg => exact Or.inl (Or.inr (Or.inl hclose))
  obtain ⟨before, after, rfl, hbefore⟩ := List.eq_append_cons_of_mem hopen
  by_cases hspace : ∃ b ∈ before, b ≠ 32
  · exact Or.inl (Or.inr (Or.inr ⟨before, after, rfl, hbefore, hspace⟩))
  · right
    have hall : ∀ b ∈ before, b = 32 := fun b hb => not_not.mp fun h => hspace ⟨b, hb, h⟩
    have hindent : before = List.replicate before.length 32 :=
      List.eq_replicate_iff.mpr ⟨rfl, hall⟩
    have hafter : 93 ∈ after.reverse := by
      rcases List.mem_append.mp hclose with h | h
      · exact absurd (hall 93 h) (by decide)
      · rw [List.mem_reverse]
        exact (List.mem_cons.mp h).resolve_left (by decide)
    -- the last closing bracket is the first one from behind
    obtain ⟨tail, body, hsplit, htail⟩ := List.eq_append_cons_of_mem hafter
    refine ⟨before.length, body.reverse, tail.reverse, ?_, by simpa using htail⟩
    rw [← hindent, ← List.reverse_reverse after, hsplit]
    simp

-- Every setting can be something else than it is.
theorem exists_ne {k : Setting} (x : k.Value) : ∃ y : k.Value, y ≠ x := by
  cases k with
  | port => exact ⟨x + 1, Nat.succ_ne_self x⟩
  | turntime => exact ⟨x + 1, by simp⟩
  | maxClients => exact ⟨x + 1, Nat.succ_ne_self x⟩
  | ingameTime => exact ⟨!x, by simp⟩
  | autosave => exact ⟨!x, by simp⟩
  | secret => exact ⟨0 :: x, by simp⟩

-- A key that is known is stored, so it is no line that changes nothing.
theorem known_key_stores (k : Setting) (val : Bytes) (more : List Bytes) :
    ¬∀ c, readTokens c (k.key :: val :: more) = some c := by
  intro hsame
  have hvals : ∀ j ∈ settings, assigns k.key val j ≠ some none := by
    intro j hj hnone
    have hthrow := (fields.assign_eq_none_iff Config.default).mpr ⟨j, hj, hnone⟩
    exact absurd ((hsame Config.default).symm.trans hthrow) nofun
  have hread : ∀ c : Config, c.get k = (k.ofLine val).getD (c.get k) := by
    intro c
    obtain ⟨c', hc', hget, -⟩ := fields.assign_get nodup_settings hvals c
    have hk := hget k (mem_settings k)
    obtain rfl : c = c' := Option.some.inj ((hsame c).symm.trans hc')
    rwa [assigns, if_pos rfl] at hk
  cases hx : k.ofLine val with
  | none => exact hvals k (mem_settings k) (by rw [assigns, if_pos rfl, hx])
  | some x =>
      obtain ⟨y, hy⟩ := exists_ne x
      have hset := hread (Config.default.set k y)
      rw [hx, Option.getD_some] at hset
      exact hy ((fields.get_set k y Config.default).symm.trans hset)

theorem unknown_key_ignored {key val : Bytes} (h : ∀ k : Setting, key ≠ k.key) (more : List Bytes)
    (c : Config) : readTokens c (key :: val :: more) = some c := by
  have hnone : assigns key val = fun _ => none := by
    funext k
    exact if_neg (h k)
  rw [readTokens, hnone, assign_none]

-- What split finds: the text as one token, or a colon behind the first one.
theorem split_first (inner : Bytes) :
    (∃ key, split inner 58 = [key]) ∨
      ∃ key rest, inner = key ++ 58 :: rest ∧ ∀ b ∈ key, b ≠ 58 ∧ b ≠ 0 := by
  obtain ⟨key, rest, hkey, hrest⟩ : ∃ key rest, key = inner.takeWhile (inPiece 58) ∧
      rest = inner.dropWhile (inPiece 58) := ⟨_, _, rfl, rfl⟩
  have hinner : inner = key ++ rest := by rw [hkey, hrest, List.takeWhile_append_dropWhile]
  have hsafe : ∀ b ∈ key, b ≠ 58 ∧ b ≠ 0 :=
    fun b hb => inPiece_iff.mp (List.mem_takeWhile_imp (hkey ▸ hb))
  have hend := List.head?_dropWhile_not (inPiece 58) inner
  rw [← hrest] at hend
  cases rest with
  | nil =>
      refine Or.inl ⟨key, ?_⟩
      rw [split, hinner, splitLoop_piece 58 hsafe]
      rfl
  | cons b rest =>
      by_cases hcolon : b = 58
      · exact Or.inr ⟨key, rest, hcolon ▸ hinner, hsafe⟩
      · refine Or.inl ⟨key, ?_⟩
        have hnul : b = 0 := by
          by_contra hnul
          simp [inPiece_iff.mpr ⟨hcolon, hnul⟩] at hend
        rw [split, hinner, splitLoop_piece 58 hsafe, splitLoop, if_pos hnul]
        rfl

theorem split_colon {key : Bytes} (hkey : ∀ b ∈ key, b ≠ 58 ∧ b ≠ 0) (rest : Bytes) :
    ∃ val more, split (key ++ 58 :: rest) 58 = key :: val :: more := by
  have hsafe : ∀ b ∈ key ++ [], b ≠ 58 ∧ b ≠ 0 := by rwa [List.append_nil]
  obtain ⟨more, hmore⟩ := split_setting (by decide) hsafe rest
  exact ⟨_, more, hmore⟩

theorem ignorable_iff (line : Bytes) : Ignorable line ↔ ∀ c, readLine c line = some c := by
  constructor
  · rintro (hcomment | ⟨indent, body, tail, key, rest, rfl, htail, hinner, hkey, hunknown⟩) c
    · exact readLine_comment hcomment c
    · obtain ⟨val, more, hsplit⟩ := split_colon hkey rest
      rw [readLine_eq, lineTokens_bracketed htail, hinner, hsplit, Option.elim_some]
      exact unknown_key_ignored hunknown more c
  · intro hsame
    rcases comment_or_bracketed line with hcomment | ⟨indent, body, tail, rfl, htail⟩
    · exact Or.inl hcomment
    · simp only [readLine_eq, lineTokens_bracketed htail, Option.elim_some] at hsame
      rcases split_first (body ++ overrun indent tail) with ⟨key, hone⟩ | ⟨key, rest, hinner, hkey⟩
      · -- a single token is read beyond
        have hread := hsame Config.default
        rw [hone] at hread
        cases hread
      · obtain ⟨val, more, hsplit⟩ := split_colon hkey rest
        rw [hinner, hsplit] at hsame
        refine Or.inr ⟨indent, body, tail, key, rest, rfl, htail, hinner, hkey, ?_⟩
        rintro k rfl
        exact known_key_stores k val more hsame

theorem isSetting_readLine {line : Bytes} (h : IsSetting line) (c : Config) :
    readLine c line ≠ none := by
  obtain ⟨indent, key, value, tail, rfl, hwell, -⟩ := h
  rw [readLine_text hwell, Ne, fields.assign_eq_none_iff]
  rintro ⟨k, -, hnone⟩
  exact (stored_sets hwell).1 hnone

theorem foldlM_ne_none {lines : List Bytes} (h : ∀ line ∈ lines, ∀ c, readLine c line ≠ none)
    (c : Config) : ∃ c', lines.foldlM readLine c = some c' := by
  induction lines generalizing c with
  | nil => exact ⟨c, rfl⟩
  | cons line lines ih =>
      obtain ⟨c₁, hc₁⟩ := Option.ne_none_iff_exists'.mp (h line List.mem_cons_self c)
      obtain ⟨c₂, hc₂⟩ := ih (fun line hline => h line (List.mem_cons_of_mem _ hline)) c₁
      refine ⟨c₂, ?_⟩
      rw [List.foldlM_cons, hc₁]
      exact hc₂

theorem loadEnvVars_ne_none (getenv : Bytes → Option Bytes) (c : Config) :
    loadEnvVars getenv c ≠ none ↔
      ∀ (k : Setting) (v : Bytes), getenv k.envName = some v → (k.ofVar v).isSome := by
  rw [loadEnvVars, Ne, Option.map_eq_none_iff, fields.assign_eq_none_iff]
  constructor
  · intro h k v hv
    by_contra hnone
    refine h ⟨k, mem_settings k, ?_⟩
    rw [hv, Option.map_some, Option.not_isSome_iff_eq_none.mp hnone]
  · rintro h ⟨k, -, hk⟩
    obtain ⟨v, hv, hnone⟩ := Option.map_eq_some_iff.mp hk
    have hsome := h k v hv
    rw [hnone] at hsome
    cases hsome

-- Which contents of webfort.txt, and which variables, do no harm.
theorem malformed_harmless_iff (getenv : Bytes → Option Bytes) (f : Bytes) :
    Harmless getenv f ↔
      (∀ line ∈ getlines f [], IsSetting line ∨ Ignorable line) ∧
        ∀ (k : Setting) (v : Bytes), getenv k.envName = some v → (k.ofVar v).isSome := by
  constructor
  · rintro ⟨hload, hlines⟩
    constructor
    · intro line hline
      by_cases hsetting : IsSetting line
      · exact Or.inl hsetting
      · exact Or.inr ((ignorable_iff line).mpr (hlines line hline hsetting))
    · cases htext : loadTextFile (some f) Config.default with
      | none => exact absurd (by rw [loadConfig, htext]; rfl) (hload Config.default)
      | some r =>
          obtain ⟨c, -, rfl⟩ := Option.map_eq_some_iff.mp htext
          apply (loadEnvVars_ne_none getenv c).mp
          have hboth := hload Config.default
          rwa [loadConfig, htext] at hboth
  · rintro ⟨hlines, henv⟩
    constructor
    · intro c
      have hread : ∀ line ∈ getlines f [], ∀ c, readLine c line ≠ none := by
        intro line hline c
        rcases hlines line hline with hsetting | hignorable
        · exact isSetting_readLine hsetting c
        · rw [(ignorable_iff line).mp hignorable c]
          exact Option.some_ne_none c
      obtain ⟨c', hc'⟩ := foldlM_ne_none hread c
      rw [loadConfig, loadTextFile, hc']
      exact (loadEnvVars_ne_none getenv c').mpr henv
    · intro line hline hsetting
      exact (ignorable_iff line).mp ((hlines line hline).resolve_left hsetting)

-- A line without a colon is read behind its tokens, a word is no number, and a
-- port that is too large is cut to 16 bits. A plugin_enable that meets the
-- first does not return, and leaves the plugin enabled without a server.
theorem malformed_lines_do_harm :
    loadConfig (fun _ => none) (some (ascii "[FOO]")) Config.default = none ∧
      loadConfig (fun _ => none) (some (ascii "[PORT:abc]")) Config.default = none ∧
      readLine Config.default (ascii "[PORT:70000]") = some { Config.default with port := 4464 } ∧
      ¬Harmless (fun _ => none) (ascii "[FOO]") ∧
      let read := loadConfig (fun _ => none) (some (ascii "[FOO]")) Sample.config
      let enabled := pluginEnable true { Sample.host with throws := read.isNone }
        (Plugin.init true Sample.config (Sample.game 64))
      enabled.2 = none ∧ enabled.1.enabled = true ∧ enabled.1.hooks = true ∧
        enabled.1.world.running = false := by
  have hload : loadConfig (fun _ => none) (some (ascii "[FOO]")) Config.default = none := rfl
  exact ⟨hload, rfl, rfl, fun h => h.1 Config.default hload, rfl, rfl, rfl, rfl⟩

end WebFort
