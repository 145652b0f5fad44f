import WebFort.Atlas.Served
import WebFort.Header

namespace WebFort

open Library

-- The atlas as the pages get to see it: how many have been published, whether
-- there is one, and the tile size in its atlas.json.
structure AtlasHost where
  builds : Nat
  available : Bool
  tile : Nat × Nat

-- What one call of wf_build_atlas does to it.
def AtlasHost.after (h : AtlasHost) (tile : Nat × Nat) : BuildResult → AtlasHost
  | .built => ⟨h.builds + 1, true, tile⟩
  | .cleared => { h with available := false }
  | .skipped => h
  | .failed => h

-- What may keep the answer of on_http from a page.
inductive Fault
  | status
  | network
  | garbled
  deriving DecidableEq

inductive JsonAnswer
  | ok (build : Nat) (tile : Nat × Nat)
  | notFound
  | otherStatus
  | networkError
  | unparsable

-- The build the answer belongs to is known to nobody.
def AtlasHost.json (h : AtlasHost) : Option Fault → JsonAnswer
  | none => if h.available then .ok h.builds h.tile else .notFound
  | some .status => .otherStatus
  | some .network => .networkError
  | some .garbled => .unparsable

-- None for whatever is no image.
def AtlasHost.png (h : AtlasHost) : Option Fault → Option Nat
  | none => if h.available then some h.builds else none
  | some _ => none

theorem AtlasHost.json_none (h : AtlasHost) :
    h.json none = if h.available then .ok h.builds h.tile else .notFound := rfl

theorem AtlasHost.png_none (h : AtlasHost) :
    h.png none = if h.available then some h.builds else none := rfl

-- How far a load is.
inductive Load
  | idle
  | jsonSent
  | jsonAnswered (answer : JsonAnswer)
  | pngSent (map : Nat)
  | pngAnswered (map : Nat) (image : Option Nat)

-- The atlas variables of the page. The image and the map are known by the
-- build they come from.
structure AtlasPage where
  atlasLoading : Bool
  lastAtlasVersion : Int
  atlasImg : Option Nat
  atlasMap : Option Nat
  atlasTile : Nat × Nat
  load : Load
  -- setTimeout(loadAtlas, 3000)
  timers : Nat

def AtlasPage.init : AtlasPage := ⟨false, -1, none, none, (16, 16), .idle, 0⟩

def loadAtlas (p : AtlasPage) : AtlasPage :=
  if p.atlasLoading then p else { p with atlasLoading := true, load := .jsonSent }

-- info.tw || 16
def tileOr16 (n : Nat) : Nat := if n = 0 then 16 else n

-- jsonReq.onload and jsonReq.onerror
def jsonDone (p : AtlasPage) : JsonAnswer → AtlasPage
  | .ok build tile =>
      { p with atlasTile := (tileOr16 tile.1, tileOr16 tile.2), load := .pngSent build }
  | .notFound => { p with atlasLoading := false, load := .idle, timers := p.timers + 1 }
  | .networkError => { p with atlasLoading := false, load := .idle, timers := p.timers + 1 }
  | .otherStatus => { p with atlasLoading := false, load := .idle }
  | .unparsable => { p with atlasLoading := false, load := .idle }

-- img.onload and img.onerror
def pngDone (p : AtlasPage) (map : Nat) : Option Nat → AtlasPage
  | some image =>
      { p with atlasImg := some image, atlasMap := some map, atlasLoading := false, load := .idle }
  | none => { p with atlasLoading := false, load := .idle }

-- The bits of a packet that are about the atlas, and the build of the moment.
structure AtlasTock where
  graphicsMode : Bool
  atlasVersion : Nat
  build : Nat

def AtlasPage.onMessage (p : AtlasPage) (t : AtlasTock) : AtlasPage :=
  if t.graphicsMode = true ∧ (t.atlasVersion : Int) ≠ p.lastAtlasVersion then
    loadAtlas { p with lastAtlasVersion := t.atlasVersion }
  else if t.graphicsMode = false then
    { p with lastAtlasVersion := -1, atlasImg := none, atlasMap := none }
  else p

-- A server, a page, and the packets on their way. The last three fields only
-- record what has happened: whether the last packet was one of graphics mode,
-- the build announced by the last one that was, and whether an atlas has been
-- published between the two answers to the load under way.
structure AtlasWeb where
  host : AtlasHost
  tocks : List AtlasTock
  page : AtlasPage
  graphics : Bool
  announced : Nat
  late : Bool

def AtlasWeb.init : AtlasWeb := ⟨⟨0, false, (16, 16)⟩, [], .init, false, 0, false⟩

inductive AtlasMove
  | build (tile : Nat × Nat) (result : BuildResult)
  | tock (graphicsMode : Bool)
  | receive
  | fire
  | answerJson (fault : Option Fault)
  | jsonDone
  | answerPng (fault : Option Fault)
  | pngDone

-- Between the two answers.
def Load.waits : Load → Bool
  | .jsonAnswered _ => true
  | .pngSent _ => true
  | _ => false

namespace AtlasWeb

def setLoad (w : AtlasWeb) (l : Load) : AtlasWeb := { w with page := { w.page with load := l } }

def enabled (w : AtlasWeb) : AtlasMove → Prop
  | .build _ _ => True
  | .tock _ => True
  | .receive => w.tocks ≠ []
  | .fire => w.page.timers ≠ 0
  | .answerJson _ => w.page.load = .jsonSent
  | .jsonDone => ∃ answer, w.page.load = .jsonAnswered answer
  | .answerPng _ => ∃ map, w.page.load = .pngSent map
  | .pngDone => ∃ map image, w.page.load = .pngAnswered map image

def next (w : AtlasWeb) : AtlasMove → AtlasWeb
  | .build tile result =>
      { w with
        host := w.host.after tile result
        late := w.late || (result = .built && w.page.load.waits) }
  | .tock graphicsMode =>
      { w with tocks := w.tocks ++ [⟨graphicsMode, w.host.builds % 16, w.host.builds⟩] }
  | .receive =>
      match w.tocks with
      | [] => w
      | t :: rest =>
          { w with
            tocks := rest
            page := w.page.onMessage t
            graphics := t.graphicsMode
            announced := if t.graphicsMode then t.build else w.announced }
  | .fire => { w with page := loadAtlas { w.page with timers := w.page.timers - 1 } }
  | .answerJson fault => { w.setLoad (.jsonAnswered (w.host.json fault)) with late := false }
  | .jsonDone =>
      match w.page.load with
      | .jsonAnswered answer => { w with page := WebFort.jsonDone w.page answer }
      | _ => w
  | .answerPng fault =>
      match w.page.load with
      | .pngSent map => w.setLoad (.pngAnswered map (w.host.png fault))
      | _ => w
  | .pngDone =>
      match w.page.load with
      | .pngAnswered map image => { w with page := WebFort.pngDone w.page map image }
      | _ => w

section Moves

variable {w : AtlasWeb}

theorem next_receive {t : AtlasTock} {rest : List AtlasTock} (h : w.tocks = t :: rest) :
    w.next .receive =
      { w with
        tocks := rest
        page := w.page.onMessage t
        graphics := t.graphicsMode
        announced := if t.graphicsMode then t.build else w.announced } := by
  simp only [next, h]

theorem next_jsonDone {answer : JsonAnswer} (h : w.page.load = .jsonAnswered answer) :
    w.next .jsonDone = { w with page := WebFort.jsonDone w.page answer } := by
  simp only [next, h]

theorem next_answerPng {map : Nat} (fault : Option Fault) (h : w.page.load = .pngSent map) :
    w.next (.answerPng fault) = w.setLoad (.pngAnswered map (w.host.png fault)) := by
  simp only [next, h]

theorem next_pngDone {map : Nat} {image : Option Nat} (h : w.page.load = .pngAnswered map image) :
    w.next .pngDone = { w with page := WebFort.pngDone w.page map image } := by
  simp only [next, h]

end Moves

end AtlasWeb

def atlasWeb : Machine AtlasWeb AtlasMove := ⟨AtlasWeb.enabled, AtlasWeb.next⟩

-- The host stands for the globals of the server.
structure Presents (v : Served) (h : AtlasHost) : Prop where
  version : v.atlas.version = h.builds % 16
  json : v.atlas.json.map (fun info => (info.tw, info.th)) = if h.available then some h.tile else none
  png : v.atlas.png.isSome = h.available

theorem Presents.init : Presents .init AtlasWeb.init.host := ⟨rfl, rfl, rfl⟩

theorem Presents.call {v : Served} {h : AtlasHost} (hp : Presents v h) (c : BuildCall) :
    Presents (v.call c)
      (h.after (c.textures.tw, c.textures.th) (wfBuildAtlas c.textures c.encodes v.atlas).2) := by
  unfold Served.call wfBuildAtlas
  split
  · exact ⟨hp.version, rfl, rfl⟩
  · split
    · exact hp
    · split
      · exact hp
      · split
        · exact hp
        · split
          · refine ⟨?_, rfl, rfl⟩
            show (v.atlas.version + 1) % 16 = (h.builds + 1) % 16
            rw [hp.version]
            omega
          · exact hp

-- The calls of wf_build_atlas an event makes, as the pages see them.
def buildMove (p : Served × BuildCall) : AtlasMove :=
  .build (p.2.textures.tw, p.2.textures.th)
    (wfBuildAtlas p.2.textures p.2.encodes p.1.atlas).2

theorem Presents.event {v : Served} {w : AtlasWeb} (h : Presents v w.host) (e : AtlasEvent) :
    Presents (atlasNext v e) (atlasWeb.exec w ((buildCalls v e).map buildMove)).host := by
  cases e with
  | enable useGraphics c =>
      have hreset : Presents (v.reset useGraphics) w.host := ⟨h.version, h.json, h.png⟩
      exact hreset.call c
  | update useGraphics modeCall tickCall =>
      have htick : ∀ (moded : Served) (w' : AtlasWeb), Presents moded w'.host →
          Presents (moded.countTick tickCall) (atlasWeb.exec w'
            ((if moded.atlas.tick + 1 ≥ 60 then [(moded.setTick 0, tickCall)] else []).map
              buildMove)).host := by
        intro moded w' hm
        unfold Served.countTick
        split
        · have hzero : Presents (moded.setTick 0) w'.host := ⟨hm.version, hm.json, hm.png⟩
          exact hzero.call tickCall
        · exact ⟨hm.version, hm.json, hm.png⟩
      show Presents ((v.followMode useGraphics modeCall).countTick tickCall) _
      rw [buildCalls, List.map_append, Machine.exec_append]
      refine htick _ _ ?_
      unfold Served.followMode
      split
      · have hmode : Presents (v.setMode useGraphics) w.host := ⟨h.version, h.json, h.png⟩
        exact hmode.call modeCall
      · exact h

-- Whatever happens on the server is a list of such moves.
theorem presents_run (es : List AtlasEvent) {v : Served} {w : AtlasWeb} (h : Presents v w.host) :
    ∃ ms, (∀ m ∈ ms, ∃ p, m = buildMove p) ∧
      Presents (atlasServer.exec v es) (atlasWeb.exec w ms).host := by
  induction es generalizing v w with
  | nil => exact ⟨[], fun _ hm => absurd hm List.not_mem_nil, h⟩
  | cons e es ih =>
      obtain ⟨ms, hms, hrest⟩ := ih (h.event e)
      refine ⟨(buildCalls v e).map buildMove ++ ms, fun m hm => ?_, ?_⟩
      · rcases List.mem_append.mp hm with hm | hm
        · obtain ⟨p, -, hp⟩ := List.mem_map.mp hm
          exact ⟨p, hp.symm⟩
        · exact hms m hm
      · rw [Machine.exec_append]
        exact hrest

-- A packet carries the mode and the version of the moment.
theorem header_atlas {hdl : Handle} {st : State} {h : Header}
    (hread : readHeader (tileLoop hdl st).bytes = some h) :
    h.graphicsMode = st.graphicsMode ∧ h.atlasVersion = st.atlasVersion % 16 := by
  obtain ⟨hmode, hversion⟩ := turnPart_atlas st
  rw [readHeader_tileLoop] at hread
  obtain ⟨player, -, rfl⟩ := Option.map_eq_some_iff.mp hread
  exact ⟨hmode, congrArg (· % 16) hversion⟩

end WebFort
