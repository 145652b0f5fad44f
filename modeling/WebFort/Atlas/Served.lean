import WebFort.Atlas

namespace WebFort

open Library

-- The served atlas, and the textures it was made from.
structure Served where
  atlas : Atlas
  source : Option Textures

def Served.init : Served := ⟨Atlas.init, none⟩

-- One call of wf_build_atlas: what it finds, and whether the image is encoded.
structure BuildCall where
  textures : Textures
  encodes : Bool

def newSource (c : BuildCall) (old : Option Textures) : BuildResult → Option Textures
  | .built => some c.textures
  | .cleared => none
  | .skipped => old
  | .failed => old

namespace Served

def call (c : BuildCall) (v : Served) : Served :=
  let r := wfBuildAtlas c.textures c.encodes v.atlas
  ⟨r.1, newSource c v.source r.2⟩

def setMode (useGraphics : Bool) (v : Served) : Served :=
  { v with atlas := { v.atlas with graphicsMode := useGraphics } }

-- plugin_enable forces a mismatch.
def reset (useGraphics : Bool) (v : Served) : Served :=
  { v with
    atlas := { v.atlas with
      graphicsMode := useGraphics
      lastValidCount := 0
      lastRawsSize := 0
      lastGfxMode := !useGraphics } }

def setTick (n : Nat) (v : Served) : Served := { v with atlas := { v.atlas with tick := n } }

-- The part of plugin_onupdate that looks at the flag USE_GRAPHICS.
def followMode (useGraphics : Bool) (c : BuildCall) (v : Served) : Served :=
  if useGraphics ≠ v.atlas.graphicsMode then (v.setMode useGraphics).call c else v

-- And the periodic one.
def countTick (c : BuildCall) (v : Served) : Served :=
  if v.atlas.tick + 1 ≥ 60 then (v.setTick 0).call c else v.setTick (v.atlas.tick + 1)

end Served

-- Where wf_build_atlas may be called: plugin_enable(true), and the two places
-- of plugin_onupdate.
inductive AtlasEvent
  | enable (useGraphics : Bool) (c : BuildCall)
  | update (useGraphics : Bool) (modeCall tickCall : BuildCall)

def atlasNext (v : Served) : AtlasEvent → Served
  | .enable useGraphics c => (v.reset useGraphics).call c
  | .update useGraphics modeCall tickCall =>
      (v.followMode useGraphics modeCall).countTick tickCall

def atlasServer : Machine Served AtlasEvent := ⟨fun _ _ => True, atlasNext⟩

-- The calls an event makes, each with what it meets.
def buildCalls (v : Served) : AtlasEvent → List (Served × BuildCall)
  | .enable useGraphics c => [(v.reset useGraphics, c)]
  | .update useGraphics modeCall tickCall =>
      let moded := v.followMode useGraphics modeCall
      (if useGraphics ≠ v.atlas.graphicsMode then [(v.setMode useGraphics, modeCall)] else []) ++
        if moded.atlas.tick + 1 ≥ 60 then [(moded.setTick 0, tickCall)] else []

def Exportable (t : Textures) : Prop :=
  ∃ surf e, some surf ∈ t.raws ∧ Surface.exported surf = some e

-- After a call in graphics mode that builds or skips, what is served is the
-- atlas of the textures at the call.
def Current (v : Served) (c : BuildCall) : Prop :=
  let r := wfBuildAtlas c.textures c.encodes v.atlas
  v.atlas.graphicsMode = true → Exportable c.textures → r.2 = .built ∨ r.2 = .skipped →
    r.1.json = some (atlasInfo c.textures) ∧ r.1.png = some (atlasImage c.textures)

-- Textures that agree with the last build in both counts and the mode export
-- the same as those of the last build.
def CountsTell (v : Served) (c : BuildCall) : Prop :=
  v.atlas.graphicsMode = true → Exportable c.textures → v.atlas.unchanged c.textures →
    ∀ t, v.source = some t → SameExports t c.textures

structure Sourced (v : Served) : Prop where
  json : v.atlas.json = v.source.map atlasInfo
  png : v.atlas.png = v.source.map atlasImage
  source : v.source = none → v.atlas.lastRawsSize = 0

namespace Sourced

variable {v : Served}

theorem init : Sourced .init := ⟨rfl, rfl, fun _ => rfl⟩

theorem setMode (h : Sourced v) (useGraphics : Bool) : Sourced (v.setMode useGraphics) :=
  ⟨h.json, h.png, h.source⟩

theorem reset (h : Sourced v) (useGraphics : Bool) : Sourced (v.reset useGraphics) :=
  ⟨h.json, h.png, fun _ => rfl⟩

theorem setTick (h : Sourced v) (n : Nat) : Sourced (v.setTick n) := ⟨h.json, h.png, h.source⟩

theorem call (h : Sourced v) (c : BuildCall) : Sourced (v.call c) := by
  unfold Served.call wfBuildAtlas
  split
  · exact ⟨rfl, rfl, fun _ => rfl⟩
  · split
    · exact h
    · split
      · exact h
      · split
        · exact h
        · split
          · exact ⟨rfl, rfl, fun hnone => by cases hnone⟩
          · exact h

theorem followMode (h : Sourced v) (useGraphics : Bool) (c : BuildCall) :
    Sourced (v.followMode useGraphics c) := by
  unfold Served.followMode
  split
  · exact (h.setMode useGraphics).call c
  · exact h

theorem countTick (h : Sourced v) (c : BuildCall) : Sourced (v.countTick c) := by
  unfold Served.countTick
  split
  · exact (h.setTick 0).call c
  · exact h.setTick _

theorem next (h : Sourced v) (e : AtlasEvent) : Sourced (atlasNext v e) := by
  cases e with
  | enable useGraphics c => exact (h.reset useGraphics).call c
  | update useGraphics modeCall tickCall =>
      exact (h.followMode useGraphics modeCall).countTick tickCall

theorem of_mem_buildCalls (h : Sourced v) {e : AtlasEvent} {p : Served × BuildCall}
    (hp : p ∈ buildCalls v e) : Sourced p.1 := by
  cases e with
  | enable useGraphics c =>
      rw [List.mem_singleton.mp hp]
      exact h.reset useGraphics
  | update useGraphics modeCall tickCall =>
      rcases List.mem_append.mp hp with hp | hp
      · split at hp
        · rw [List.mem_singleton.mp hp]
          exact h.setMode useGraphics
        · cases hp
      · split at hp
        · rw [List.mem_singleton.mp hp]
          exact (h.followMode useGraphics modeCall).setTick 0
        · cases hp

-- A build is current; what is skipped is as current as the last build.
theorem current_iff (h : Sourced v) (c : BuildCall) : Current v c ↔ CountsTell v c := by
  unfold Current CountsTell
  refine forall_congr' fun hmode => forall_congr' fun hexp => ?_
  have hsize : c.textures.raws.length ≠ 0 := by
    obtain ⟨surf, -, hmem, -⟩ := hexp
    exact Nat.ne_of_gt (List.length_pos_of_mem hmem)
  have hnot : ¬v.atlas.graphicsMode = false := by simp [hmode]
  unfold wfBuildAtlas
  rw [if_neg hnot, if_neg hsize]
  split
  · rename_i hsame
    simp only [hsame, forall_true_left, reduceCtorEq, or_true]
    obtain ⟨t, ht⟩ : ∃ t, v.source = some t :=
      Option.ne_none_iff_exists'.mp fun hnone => hsize (hsame.2.1.trans (h.source hnone))
    rw [h.json, h.png, ht]
    simp only [Option.map_some, Option.some.injEq, forall_eq', ← atlas_eq_iff]
  · rename_i hsame
    refine iff_of_true (fun hresult => ?_) fun hs => absurd hs hsame
    split at hresult
    · simp at hresult
    · split at hresult
      · rename_i hcells hencodes
        rw [if_neg hcells, if_pos hencodes]
        exact ⟨rfl, rfl⟩
      · simp at hresult

end Sourced

-- Over whole histories, call by call.
theorem atlas_current_iff (es : List AtlasEvent) :
    atlasServer.Each (fun v e => ∀ p ∈ buildCalls v e, Current p.1 p.2) .init es ↔
      atlasServer.Each (fun v e => ∀ p ∈ buildCalls v e, CountsTell p.1 p.2) .init es := by
  have hvalid : atlasServer.Valid .init es :=
    atlasServer.valid_of_enabled (fun _ _ => trivial) .init es
  refine Machine.each_iff atlasServer Sourced _ _ (fun v e h _ => h.next e) (fun v e h _ => ?_)
    .init es Sourced.init hvalid
  exact forall₂_congr fun p hp => (h.of_mem_buildCalls hp).current_iff p.2

namespace Sample

-- A table with one sprite of a single pixel, of the given grey.
def sprite (grey : UInt8) : Textures where
  raws := [some ⟨1, 1, 4, some fun _ => grey,
    some ⟨4, ⟨0xFF, 0⟩, ⟨0xFF00, 8⟩, ⟨0xFF0000, 16⟩, ⟨0, 0⟩⟩⟩]
  largeFontTexpos _ := 0
  tilePixelX := 1
  tilePixelY := 1
  art := []

def build (grey : UInt8) : BuildCall := ⟨sprite grey, true⟩

-- The plugin is enabled, and 59 updates go by.
def spriteOne : List AtlasEvent :=
  .enable true (build 1) :: List.replicate 59 (.update true (build 1) (build 1))

end Sample

section Ticks

variable (v : Served) (m c : BuildCall)

theorem followMode_self : v.followMode v.atlas.graphicsMode m = v := if_neg (not_not.mpr rfl)

-- Until the sixtieth update nothing is called.
theorem exec_updates (n : Nat) (h : v.atlas.tick + n < 60) :
    atlasServer.exec v (List.replicate n (.update v.atlas.graphicsMode m c)) =
      v.setTick (v.atlas.tick + n) := by
  induction n generalizing v with
  | zero => rfl
  | succ n ih =>
      have hnext : atlasServer.next v (.update v.atlas.graphicsMode m c) =
          v.setTick (v.atlas.tick + 1) := by
        show (v.followMode v.atlas.graphicsMode m).countTick c = _
        rw [followMode_self]
        exact if_neg (by omega)
      have hrest := ih (v.setTick (v.atlas.tick + 1)) (show v.atlas.tick + 1 + n < 60 by omega)
      rw [List.replicate_succ, Machine.exec_cons, hnext]
      refine hrest.trans ?_
      show v.setTick (v.atlas.tick + 1 + n) = _
      rw [Nat.add_right_comm]
      rfl

theorem buildCalls_sixtieth (h : v.atlas.tick = 59) :
    buildCalls v (.update v.atlas.graphicsMode m c) = [(v.setTick 0, c)] := by
  have htick : v.atlas.tick + 1 ≥ 60 := by omega
  unfold buildCalls
  simp only [followMode_self, ne_eq, not_true_eq_false, if_false, List.nil_append, if_pos htick]

end Ticks

-- The slot has been given another sprite when the sixtieth update comes, and
-- the old one stays in the atlas.
theorem refilled_slot_keeps_atlas :
    ∃ p ∈ buildCalls (atlasServer.exec .init Sample.spriteOne)
        (.update true (Sample.build 2) (Sample.build 2)), ¬Current p.1 p.2 := by
  obtain ⟨start, hstart⟩ : ∃ start, atlasServer.next .init (.enable true (Sample.build 1)) = start :=
    ⟨_, rfl⟩
  have hmode : start.atlas.graphicsMode = true := by rw [← hstart]; decide
  have htick : start.atlas.tick = 0 := by rw [← hstart]; decide
  have hrun := exec_updates start (Sample.build 1) (Sample.build 1) 59 (by rw [htick]; decide)
  have hcalls := buildCalls_sixtieth (start.setTick 59) (Sample.build 2) (Sample.build 2) rfl
  have hmode' : (start.setTick 59).atlas.graphicsMode = true := hmode
  rw [hmode, htick] at hrun
  rw [hmode'] at hcalls
  rw [Sample.spriteOne, Machine.exec_cons, hstart, hrun, hcalls]
  refine ⟨_, List.mem_singleton_self _, fun h => ?_⟩
  have hskip : (start.setTick 0).atlas.unchanged (Sample.sprite 2) := by rw [← hstart]; decide
  have himage := (h hmode ⟨_, _, List.mem_singleton_self _, rfl⟩ (Or.inr (by rw [← hstart]; decide))).2
  have hpixel := congrArg (Option.map fun image => image.pixel 0 0) himage
  rw [← hstart] at hpixel
  exact absurd hpixel (by decide)

end WebFort
