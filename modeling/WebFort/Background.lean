import WebFort.Tiles

namespace WebFort

open Library

-- A background that is carried and as near to the colour as any other that
-- can be.
structure NearestSent (palette : Nat → RGB) (c : RGB) (bg : Nat) : Prop where
  carried : bg < 8
  nearest : ∀ j < 8, colorDistance (palette bg) c ≤ colorDistance (palette j) c

-- A bright entry is the nearest of all only where the dark one it is cut down
-- to is the nearest of the dark.
def DarkEnough (palette : Nat → RGB) (c : RGB) : Prop :=
  ∀ i, IsArgmin (fun i => colorDistance (palette i) c) 16 i → 8 ≤ i →
    ∀ j < 8, colorDistance (palette (i - 8)) c ≤ colorDistance (palette j) c

theorem nearestSent_iff {palette : Nat → RGB} {c : RGB} {i : Nat}
    (hi : IsArgmin (fun i => colorDistance (palette i) c) 16 i) :
    NearestSent palette c (i % 8) ↔ DarkEnough palette c := by
  have hlt : i < 16 := hi.lt
  by_cases hdark : i < 8
  · have hsame : i % 8 = i := Nat.mod_eq_of_lt hdark
    rw [hsame]
    refine iff_of_true ⟨hdark, fun j hj => hi.le j (by omega)⟩ fun k hk hbright => ?_
    have hki : k = i := hk.unique hi
    omega
  · have hcut : i % 8 = i - 8 := by omega
    rw [hcut]
    constructor
    · intro h k hk _ j hj
      obtain rfl := hk.unique hi
      exact h.nearest j hj
    · exact fun h => ⟨by omega, h i hi (by omega)⟩

-- What the page decodes of a tile's background is the nearest it can be sent
-- exactly when cutting the index down to three bits does no harm.
theorem background_nearest_iff {s : Endpoint} {hdl : Handle} {st : State} {g : Game}
    {screen : Nat → Glyph} {p : Nat × Nat} (hw : Waiting s hdl st g screen p) (page : Page) :
    ∃ c gl, pageAfterTock s hdl st page p = some c ∧
      IsLayer g.gps screen (Grid.index g.gps.dimy.toNat p.1 p.2) gl ∧
      (NearestSent g.gps.uccolor gl.bg c.drawn.bg ↔ DarkEnough g.gps.uccolor gl.bg) := by
  obtain ⟨gl, hlayer, -, -, i, hi, hbg⟩ := (tileCell_shows g screen p).layer
  refine ⟨_, gl, waiting_record hw page, hlayer, ?_⟩
  rw [hbg]
  exact nearestSent_iff hi

namespace Sample

-- Black, but for a light grey and a dark grey. The tiles have the given
-- background.
def greys (i : Nat) : RGB :=
  if i = 7 then ⟨192, 192, 192⟩ else if i = 8 then ⟨128, 128, 128⟩ else ⟨0, 0, 0⟩

def plainScreen (bg : RGB) : Nat → Glyph := fun _ => ⟨64, ⟨255, 255, 255⟩, bg⟩

def greyGame (bg : RGB) : Game :=
  { game 64 with gps := { gps 64 with uccolor := greys, screen := some (plainScreen bg) } }

def greyView (bg : RGB) : State :=
  { start with
    clients := OrdMap.empty.insert 0
      { Client.new 1 with ownSc := (fillScreenBuffer (greyGame bg) fun _ => Cell.zero).2 }
    game := greyGame bg }

theorem greyView_waiting (bg : RGB) :
    Waiting endpoint 0 (greyView bg) (greyGame bg) (plainScreen bg) (1, 1) :=
  ⟨rfl, rfl, ⟨rfl, rfl⟩, ⟨Nat.lt_succ_self 1, Nat.lt_succ_self 1⟩,
    ⟨fun _ => Cell.zero, rfl⟩, rfl, rfl⟩

end Sample

theorem background_nearest_iff_sample :
    ∃ c, pageAfterTock Sample.endpoint 0 (Sample.greyView ⟨192, 192, 192⟩) Page.blank (1, 1) = some c ∧
      NearestSent Sample.greys ⟨192, 192, 192⟩ c.drawn.bg := by
  obtain ⟨c, gl, hc, hlayer, hiff⟩ :=
    background_nearest_iff (Sample.greyView_waiting ⟨192, 192, 192⟩) Page.blank
  have hgl : gl = ⟨64, ⟨255, 255, 255⟩, ⟨192, 192, 192⟩⟩ :=
    hlayer.unique (composited_layer _ (Sample.plainScreen ⟨192, 192, 192⟩) _)
  subst hgl
  refine ⟨c, hc, hiff.mpr fun i hi hbright => ?_⟩
  -- Entry 7 is the colour itself.
  have hmatch := matchColor_argmin (Sample.greyGame ⟨192, 192, 192⟩).gps ⟨192, 192, 192⟩
  have hseven : matchColor (Sample.greyGame ⟨192, 192, 192⟩).gps ⟨192, 192, 192⟩ = 7 := by decide
  have hi7 : i = 7 := (hi.unique hmatch).trans hseven
  omega

-- Dark grey is entry 8. It is sent as entry 0, though light grey is nearer.
theorem dark_grey_sent_as_black :
    ∃ c, pageAfterTock Sample.endpoint 0 (Sample.greyView ⟨128, 128, 128⟩) Page.blank (1, 1) = some c ∧
      c.drawn.bg = 0 ∧
      colorDistance (Sample.greys 7) ⟨128, 128, 128⟩ < colorDistance (Sample.greys 0) ⟨128, 128, 128⟩ ∧
      ¬NearestSent Sample.greys ⟨128, 128, 128⟩ c.drawn.bg := by
  refine ⟨_, waiting_record (Sample.greyView_waiting ⟨128, 128, 128⟩) Page.blank, by decide,
    by decide, fun h => ?_⟩
  have hle := h.nearest 7 (by decide)
  exact absurd hle (by decide)

end WebFort
