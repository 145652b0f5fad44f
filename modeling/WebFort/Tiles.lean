import WebFort.Server.Packet
import WebFort.Library.Argmin
import WebFort.Sample
import Mathlib.Tactic.Linarith

namespace WebFort

open Library

-- A tile of DF's screen on its way to the canvas.

-- What renderUpdate makes of a record, with tiles 16 pixels wide.
structure Drawn where
  ch : Nat
  fg : Nat
  bg : Nat
  text : Bool
  texpos : Nat
  texposLower : Nat
  deriving DecidableEq

def WireCell.drawn (c : WireCell) : Drawn where
  ch := c.ch.toNat
  fg := c.fg.toNat
  bg := c.bgFlags.toNat % 16
  text := c.bgFlags &&& 64 ≠ 0
  texpos := c.texpos
  texposLower := c.texposLower

def overlay (gps : Gps) (tile : Nat) : Option Glyph :=
  if gps.topInUse then gps.screenTop.map fun top => top tile else none

def VisibleOverlay (gps : Gps) (tile : Nat) (gl : Glyph) : Prop :=
  overlay gps tile = some gl ∧ 32 < gl.ch

-- The layer a tile shows.
def IsLayer (gps : Gps) (screen : Nat → Glyph) (tile : Nat) (gl : Glyph) : Prop :=
  VisibleOverlay gps tile gl ∨ ((∀ top, ¬VisibleOverlay gps tile top) ∧ gl = screen tile)

-- The smallest character of the font drawn by a texpos.
structure IsFontChar (init : Init) (tp : Int) (ch : Nat) : Prop where
  pos : 0 < tp
  range : 1 ≤ ch ∧ ch ≤ 255
  texpos : init.largeFontTexpos ch = tp
  first : ∀ k, 1 ≤ k → k < ch → init.largeFontTexpos k ≠ tp

-- A visible character is shown as it is, a blank one as what its texpos draws.
inductive ShowsChar (g : Game) (tile : Nat) (gl : Glyph) : Nat → Prop
  | visible : 32 < gl.ch → ShowsChar g tile gl gl.ch.toNat
  | font {ch : Nat} : gl.ch ≤ 32 → IsFontChar g.init (texposAt g.gps.screentexpos tile) ch →
      ShowsChar g tile gl ch
  | blank : gl.ch ≤ 32 → (∀ ch, ¬IsFontChar g.init (texposAt g.gps.screentexpos tile) ch) →
      ShowsChar g tile gl gl.ch.toNat

-- A texpos that fits into two bytes.
def CarriesTexpos (tp : Int) (n : Nat) : Prop := (n : Int) = if 1 ≤ tp ∧ tp ≤ 65535 then tp else 0

-- The background keeps three bits of its index.
structure Shows (g : Game) (screen : Nat → Glyph) (p : Nat × Nat) (d : Drawn) : Prop where
  layer : ∃ gl, IsLayer g.gps screen (Grid.index g.gps.dimy.toNat p.1 p.2) gl ∧
    ShowsChar g (Grid.index g.gps.dimy.toNat p.1 p.2) gl d.ch ∧
    IsArgmin (fun i => colorDistance (g.gps.uccolor i) gl.fg) 16 d.fg ∧
    ∃ i, IsArgmin (fun i => colorDistance (g.gps.uccolor i) gl.bg) 16 i ∧ d.bg = i % 8
  texpos : CarriesTexpos (texposAt g.gps.screentexpos (Grid.index g.gps.dimy.toNat p.1 p.2)) d.texpos
  texposLower : CarriesTexpos
    (texposAt g.gps.screentexposLower (Grid.index g.gps.dimy.toNat p.1 p.2)) d.texposLower
  text : d.text = (isTextTile g p.1 p.2).1

section Unique

variable {g : Game} {screen : Nat → Glyph} {tile : Nat} {gl gl' : Glyph}

theorem IsLayer.unique (h : IsLayer g.gps screen tile gl) (h' : IsLayer g.gps screen tile gl') :
    gl = gl' := by
  rcases h with h | ⟨hno, rfl⟩ <;> rcases h' with h' | ⟨hno', rfl⟩
  · exact Option.some.inj (h.1.symm.trans h'.1)
  · exact absurd h (hno' gl)
  · exact absurd h' (hno gl')
  · rfl

theorem IsFontChar.unique {init : Init} {tp : Int} {ch ch' : Nat} (h : IsFontChar init tp ch)
    (h' : IsFontChar init tp ch') : ch = ch' := by
  rcases Nat.lt_trichotomy ch ch' with hlt | heq | hgt
  · exact absurd h.texpos (h'.first ch h.range.1 hlt)
  · exact heq
  · exact absurd h'.texpos (h.first ch' h'.range.1 hgt)

theorem ShowsChar.unique {ch ch' : Nat} (h : ShowsChar g tile gl ch)
    (h' : ShowsChar g tile gl ch') : ch = ch' := by
  cases h with
  | visible hv =>
      cases h' with
      | visible _ => rfl
      | font hb _ => exact absurd hv (UInt8.not_lt.mpr hb)
      | blank hb _ => rfl
  | font hb hf =>
      cases h' with
      | visible hv => exact absurd hv (UInt8.not_lt.mpr hb)
      | font _ hf' => exact hf.unique hf'
      | blank _ hno => exact absurd hf (hno ch)
  | blank hb hno =>
      cases h' with
      | visible _ => rfl
      | font _ hf' => exact absurd hf' (hno ch')
      | blank _ _ => rfl

theorem CarriesTexpos.unique {tp : Int} {n m : Nat} (h : CarriesTexpos tp n)
    (h' : CarriesTexpos tp m) : n = m := by
  have heq : (n : Int) = m := h.trans h'.symm
  omega

theorem Shows.unique {p : Nat × Nat} {d d' : Drawn} (h : Shows g screen p d)
    (h' : Shows g screen p d') : d = d' := by
  obtain ⟨gl, hl, hch, hfg, i, hbg, hi⟩ := h.layer
  obtain ⟨gl', hl', hch', hfg', j, hbg', hj⟩ := h'.layer
  obtain rfl := hl.unique hl'
  obtain rfl := hbg.unique hbg'
  cases d
  cases d'
  simp only [Drawn.mk.injEq]
  exact ⟨hch.unique hch', hfg.unique hfg', hi.trans hj.symm, h.text.trans h'.text.symm,
    h.texpos.unique h'.texpos, h.texposLower.unique h'.texposLower⟩

end Unique

section Cells

theorem colorDistance_lt (p c : RGB) : colorDistance p c < 2 ^ 31 - 1 := by
  have hsq : ∀ a b : UInt8, ((a.toNat : Int) - b.toNat) * ((a.toNat : Int) - b.toNat) ≤ 65025 := by
    intro a b
    have ha := a.toNat_lt
    have hb := b.toNat_lt
    nlinarith
  have hr := hsq p.r c.r
  have hg := hsq p.g c.g
  have hb := hsq p.b c.b
  unfold colorDistance
  simp only
  omega

theorem matchColor_argmin (gps : Gps) (c : RGB) :
    IsArgmin (fun i => colorDistance (gps.uccolor i) c) 16 (matchColor gps c) :=
  (IsArgmin.of_scan (fun i => colorDistance (gps.uccolor i) c) (2 ^ 31 - 1)
    (colorDistance_lt _ c) 15).1

theorem composited_layer (gps : Gps) (screen : Nat → Glyph) (tile : Nat) :
    IsLayer gps screen tile (composited gps screen tile) := by
  unfold IsLayer VisibleOverlay overlay composited
  cases gps.topInUse with
  | false => exact Or.inr ⟨fun _ h => by simp at h, rfl⟩
  | true =>
      cases gps.screenTop with
      | none => exact Or.inr ⟨fun _ h => by simp at h, rfl⟩
      | some top =>
          by_cases hv : 32 < (top tile).ch
          · simp only [if_pos hv]
            exact Or.inl ⟨rfl, hv⟩
          · simp only [if_neg hv]
            refine Or.inr ⟨fun gl h => hv ?_, trivial⟩
            obtain rfl := Option.some.inj h.1
            exact h.2

theorem texposToChar_font {init : Init} {tp : Int} {ch : UInt8}
    (h : texposToChar init tp = some ch) : IsFontChar init tp ch.toNat := by
  unfold texposToChar at h
  obtain ⟨k, hk, rfl⟩ := Option.map_eq_some_iff.mp h
  obtain ⟨hp, hk, hfirst⟩ := List.find?_range_eq_some.mp hk
  have hlt : k < 256 := List.mem_range.mp hk
  simp only [Bool.and_eq_true, decide_eq_true_eq] at hp
  have hcode : (UInt8.ofNat k).toNat = k := by simp [Nat.mod_eq_of_lt hlt]
  rw [hcode]
  refine ⟨by omega, by omega, hp.2, fun j hj hjk heq => ?_⟩
  have hno := hfirst j hjk
  have hpos : 0 < init.largeFontTexpos j := by omega
  simp [hj, heq] at hno
  omega

theorem texposToChar_none {init : Init} {tp : Int} (h : texposToChar init tp = none) (ch : Nat) :
    ¬IsFontChar init tp ch := by
  unfold texposToChar at h
  intro hf
  have hno := List.find?_eq_none.mp (Option.map_eq_none_iff.mp h) ch
    (List.mem_range.mpr (by have := hf.range; omega))
  refine hno ?_
  have htp := hf.texpos
  have hpos := hf.pos
  have hrange := hf.range
  simp only [Bool.and_eq_true, decide_eq_true_eq]
  omega

theorem charCode_shows (g : Game) (gl : Glyph) (tile : Nat) :
    ShowsChar g tile gl (charCode g gl.ch tile).toNat := by
  by_cases hv : 32 < gl.ch
  · have hcode : charCode g gl.ch tile = gl.ch := by
      unfold charCode
      split
      · exact if_neg fun h => absurd hv (UInt8.not_lt.mpr h.1)
      · rfl
    rw [hcode]
    exact .visible hv
  · have hb : gl.ch ≤ 32 := UInt8.not_lt.mp hv
    have hnone : texposAt g.gps.screentexpos tile ≤ 0 → charCode g gl.ch tile = gl.ch := by
      intro hle
      unfold charCode
      unfold texposAt at hle
      split
      · rename_i t ht
        rw [ht] at hle
        exact if_neg fun h => absurd h.2 (not_lt.mpr hle)
      · rfl
    by_cases hpos : 0 < texposAt g.gps.screentexpos tile
    · have hcode : charCode g gl.ch tile =
          (texposToChar g.init (texposAt g.gps.screentexpos tile)).getD gl.ch := by
        unfold charCode
        unfold texposAt at hpos ⊢
        split
        · rename_i t ht
          rw [ht] at hpos
          exact if_pos ⟨hb, hpos⟩
        · rename_i ht
          rw [ht] at hpos
          exact absurd hpos (Int.lt_irrefl 0)
      rw [hcode]
      cases hfont : texposToChar g.init (texposAt g.gps.screentexpos tile) with
      | none => exact .blank hb (texposToChar_none hfont)
      | some ch => exact .font hb (texposToChar_font hfont)
    · rw [hnone (not_lt.mp hpos)]
      exact .blank hb fun ch h => hpos h.pos

-- The colour in three and one bits, put together again.
theorem fgByte_index {i : Nat} (hi : i < 16) (s : Cell) (hfg : s.fg = UInt8.ofNat (i % 8))
    (hbold : s.bold = if i / 8 % 2 = 1 then 1 else 0) : (fgByte s).toNat = i := by
  have hbytes : ∀ i < 16, (UInt8.ofNat (((UInt8.ofNat (i % 8)).toNat +
      if (if i / 8 % 2 = 1 then (1 : UInt8) else 0) ≠ 0 then 8 else 0) % 16)).toNat = i := by
    decide
  unfold fgByte
  rw [hfg, hbold]
  exact hbytes i hi

-- The modulo of the page removes the flag and nothing else.
theorem bgFlags_index {i : Nat} (hi : i < 16) (text : Bool) :
    (UInt8.ofNat (if text then i % 8 ||| 64 else i % 8)).toNat % 16 = i % 8 ∧
      decide (UInt8.ofNat (if text then i % 8 ||| 64 else i % 8) &&& 64 ≠ 0) = text := by
  revert i text
  decide

theorem word_split {n : Nat} (hn : n < 65536) :
    word (UInt8.ofNat (n % 256)) (UInt8.ofNat (n / 256)) = n := by
  have hlo : (UInt8.ofNat (n % 256)).toNat = n % 256 := by simp
  have hhi : (UInt8.ofNat (n / 256)).toNat = n / 256 := by simp; omega
  unfold word
  rw [hlo, hhi, Nat.or_comm, ← Nat.shiftLeft_add_eq_or_of_lt (by omega : n % 256 < 2 ^ 8),
    Nat.shiftLeft_eq]
  omega

theorem carriesTexpos_word (tp : Int) :
    CarriesTexpos tp (word (UInt8.ofNat (storedTexpos tp % 256)) (UInt8.ofNat (storedTexpos tp / 256))) := by
  have hlt : storedTexpos tp < 65536 := by
    unfold storedTexpos
    split <;> omega
  rw [word_split hlt]
  unfold CarriesTexpos storedTexpos
  split
  · rw [if_pos (by omega)]
    omega
  · rw [if_neg (by omega)]
    rfl

theorem tileCell_shows (g : Game) (screen : Nat → Glyph) (p : Nat × Nat) :
    Shows g screen p
      (tileCell g screen p.1 p.2 (Grid.index g.gps.dimy.toNat p.1 p.2)).wire.drawn := by
  have hfg := matchColor_argmin g.gps
    (composited g.gps screen (Grid.index g.gps.dimy.toNat p.1 p.2)).fg
  have hbg := matchColor_argmin g.gps
    (composited g.gps screen (Grid.index g.gps.dimy.toNat p.1 p.2)).bg
  obtain ⟨hback, hflag⟩ := bgFlags_index hbg.lt (isTextTile g p.1 p.2).1
  refine ⟨⟨_, composited_layer g.gps screen _, charCode_shows g _ _, ?_, _, hbg, hback⟩,
    carriesTexpos_word _, carriesTexpos_word _, hflag⟩
  have hindex := fgByte_index hfg.lt
    (tileCell g screen p.1 p.2 (Grid.index g.gps.dimy.toNat p.1 p.2)) rfl rfl
  have heq : (tileCell g screen p.1 p.2
      (Grid.index g.gps.dimy.toNat p.1 p.2)).wire.drawn.fg = _ := hindex
  rw [heq]
  exact hfg

end Cells

-- A tile of the client's screen that is captured and waits to be sent.
structure Waiting (s : Endpoint) (hdl : Handle) (st : State) (g : Game) (screen : Nat → Glyph)
    (p : Nat × Nat) : Prop where
  screen : g.gps.screen = some screen
  size : sizeOk g.gps = true
  sameSize : st.game.gps.dimx = g.gps.dimx ∧ st.game.gps.dimy = g.gps.dimy
  inside : p.1 < width st ∧ p.2 < height st
  filled : ∃ dst, (st.getClient hdl).ownSc (Grid.index (height st) p.1 p.2) =
    (fillScreenBuffer g dst).2 (Grid.index (height st) p.1 p.2)
  unsent : (st.getClient hdl).mod (Grid.index (height st) p.1 p.2) = 0
  binary : (s hdl).processor.takesBinary = true

def pageAfterTock (s : Endpoint) (hdl : Handle) (st : State) (page : Page) : Page :=
  (sends hdl (tock s hdl st).out).foldl Page.receive page

theorem waiting_record {s : Endpoint} {hdl : Handle} {st : State} {g : Game}
    {screen : Nat → Glyph} {p : Nat × Nat} (hw : Waiting s hdl st g screen p) (page : Page) :
    pageAfterTock s hdl st page p =
      some (tileCell g screen p.1 p.2 (Grid.index g.gps.dimy.toNat p.1 p.2)).wire := by
  have hheight : height st = g.gps.dimy.toNat := congrArg Int.toNat hw.sameSize.2
  have hwidth : width st = g.gps.dimx.toNat := congrArg Int.toNat hw.sameSize.1
  have hk : sizeOk st.game.gps = true := (sizeOk_congr hw.sameSize.1 hw.sameSize.2).trans hw.size
  obtain ⟨dst, hfilled⟩ := hw.filled
  have hlt : Grid.index (height st) p.1 p.2 < total g.gps := by
    rw [total_eq g.gps hw.size, ← hwidth, ← hheight]
    exact Grid.index_lt hw.inside.1 hw.inside.2
  unfold pageAfterTock
  rw [receive_tock hdl s page hk hw.binary, if_pos (mem_dirty.mpr ⟨hw.inside, hw.unsent⟩), hfilled,
    fillScreenBuffer_ready g dst screen hw.screen hw.size]
  simp only [Buffer.copy, if_pos hlt]
  unfold frame
  rw [← hheight, Grid.index_div hw.inside.2, Grid.index_mod hw.inside.2]

-- What the page decodes of a tile is what DF shows there, and tiles that
-- show something else decode to something else.
theorem tile_fidelity {s : Endpoint} {hdl : Handle} {st : State} {g : Game}
    {screen : Nat → Glyph} {p : Nat × Nat} (hw : Waiting s hdl st g screen p) (page : Page) :
    (∃ c, pageAfterTock s hdl st page p = some c ∧ Shows g screen p c.drawn) ∧
    ∀ {s' : Endpoint} {hdl' : Handle} {st' : State} {g' : Game} {screen' : Nat → Glyph}
      {p' : Nat × Nat}, Waiting s' hdl' st' g' screen' p' → ∀ page' d d',
      Shows g screen p d → Shows g' screen' p' d' → d ≠ d' →
      pageAfterTock s hdl st page p ≠ pageAfterTock s' hdl' st' page' p' := by
  refine ⟨⟨_, waiting_record hw page, tileCell_shows g screen p⟩, ?_⟩
  intro s' hdl' st' g' screen' p' hw' page' d d' hd hd' hne heq
  rw [waiting_record hw page, waiting_record hw' page'] at heq
  have hwire := congrArg WireCell.drawn (Option.some.inj heq)
  rw [(tileCell_shows g screen p).unique hd, (tileCell_shows g' screen' p').unique hd'] at hwire
  exact hne hwire

namespace Sample

-- Blank tiles that are drawn by texpos 5, which the font has for one code.
def glyphGame (code : Nat) : Game :=
  let g := game 32
  { g with
    gps := { g.gps with screentexpos := some fun _ => 5 }
    init := { g.init with largeFontTexpos := fun ch => if ch = code then 5 else 0 } }

def glyphView (code : Nat) : State :=
  { start with
    clients := OrdMap.empty.insert 0
      { Client.new 1 with ownSc := (fillScreenBuffer (glyphGame code) fun _ => Cell.zero).2 }
    game := glyphGame code }

theorem glyphView_waiting (code : Nat) :
    Waiting endpoint 0 (glyphView code) (glyphGame code)
      (fun _ => ⟨32, ⟨255, 255, 255⟩, ⟨0, 0, 0⟩⟩) (1, 1) :=
  ⟨rfl, rfl, ⟨rfl, rfl⟩, ⟨Nat.lt_succ_self 1, Nat.lt_succ_self 1⟩,
    ⟨fun _ => Cell.zero, rfl⟩, rfl, rfl⟩

end Sample

theorem tile_fidelity_sample :
    ∃ c, pageAfterTock Sample.endpoint 0 (Sample.glyphView 65) Page.blank (1, 1) = some c ∧
      Shows (Sample.glyphGame 65) (fun _ => ⟨32, ⟨255, 255, 255⟩, ⟨0, 0, 0⟩⟩) (1, 1) c.drawn :=
  (tile_fidelity (Sample.glyphView_waiting 65) Page.blank).1

-- The table starts at code 1. The tile that is drawn as the font's code 0 is
-- sent as its own blank.
theorem code_zero_is_not_found :
    (∀ ch, (Sample.glyphGame 0).init.largeFontTexpos ch =
      texposAt (Sample.glyphGame 0).gps.screentexpos 3 ↔ ch = 0) ∧
    ∃ c, pageAfterTock Sample.endpoint 0 (Sample.glyphView 0) Page.blank (1, 1) = some c ∧
      c.drawn.ch = 32 := by
  refine ⟨fun ch => ?_, ?_⟩
  · by_cases h : ch = 0
    · simp [Sample.glyphGame, texposAt, h]
    · simp [Sample.glyphGame, texposAt, h]
  · exact ⟨_, waiting_record (Sample.glyphView_waiting 0) Page.blank, by decide⟩

end WebFort
