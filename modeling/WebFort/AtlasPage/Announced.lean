import WebFort.AtlasPage.Pairs
import WebFort.Library.History

namespace WebFort

open Library

-- What is shown is as new as the given build.
def AtlasPage.Has (p : AtlasPage) (build : Nat) : Prop :=
  ∃ image map, p.atlasImg = some image ∧ p.atlasMap = some map ∧ build ≤ image ∧ build ≤ map

-- What a load has in hand is as new as the given build.
def Load.From (build : Nat) : Load → Prop
  | .jsonAnswered (.ok map _) => build ≤ map
  | .pngSent map => build ≤ map
  | .pngAnswered map (some image) => build ≤ map ∧ build ≤ image
  | _ => True

-- The load ends in a swap, or in a retry.
def Load.Live : Load → Prop
  | .idle => False
  | .jsonAnswered .otherStatus => False
  | .jsonAnswered .unparsable => False
  | .pngAnswered _ none => False
  | _ => True

def AtlasPage.OnTheWay (p : AtlasPage) (build : Nat) : Prop :=
  p.Has build ∨ (p.load.From build ∧ p.load.Live) ∨ p.timers ≠ 0

-- In graphics mode a page that is at rest shows an atlas as new as the one
-- announced last.
def AtlasWeb.Converged (w : AtlasWeb) : Prop :=
  w.graphics = true → w.page.atlasLoading = false → w.page.timers = 0 → w.page.Has w.announced

structure AtlasWeb.AtRest (w : AtlasWeb) : Prop where
  graphics : w.graphics = true
  loading : w.page.atlasLoading = false
  timers : w.page.timers = 0

-- A build announced under a number the page has noted already is the one it
-- noted, a build announced during a load is on its way, and the last retry
-- neither fires during a load nor is missing after a failed one, unless the
-- page is as far as it has to be.
def NothingForgotten (w : AtlasWeb) : AtlasMove → Prop
  | .receive => ∀ t rest, w.tocks = t :: rest → t.graphicsMode = true →
      if (t.atlasVersion : Int) = w.page.lastAtlasVersion then
        t.build = w.announced ∨ w.page.OnTheWay t.build
      else w.page.atlasLoading = true → w.page.OnTheWay t.build
  | .fire => w.graphics = true → w.page.atlasLoading = true → w.page.timers = 1 →
      w.page.Has w.announced ∨ w.page.load.From w.announced ∧ w.page.load.Live
  | .answerJson fault => w.graphics = true → fault = some .status ∨ fault = some .garbled →
      w.page.Has w.announced ∨ w.page.timers ≠ 0
  | .answerPng fault => w.graphics = true → w.host.png fault = none →
      w.page.Has w.announced ∨ w.page.timers ≠ 0
  | _ => True

-- A step that forgets an announcement, and graphics mode ever since.
def Forgotten (done : List AtlasMove) : Prop :=
  atlasWeb.Since (fun w m => ¬NothingForgotten w m) (fun w m => (w.next m).graphics = true) .init
    done

-- The map a load has in hand.
def Load.map : Load → Option Nat
  | .jsonAnswered (.ok map _) => some map
  | .pngSent map => some map
  | .pngAnswered map _ => some map
  | _ => none

structure AtlasPage.Sound (p : AtlasPage) (builds : Nat) : Prop where
  loading : p.atlasLoading = false → p.load = .idle
  held : ∀ map, p.load.map = some map → map ≤ builds
  shown : ∀ build, p.Has build → build ≤ builds
  -- Loads never go back.
  later : ∀ build, p.Has build → p.load.From build

section Page

variable {p : AtlasPage} {builds build : Nat}

theorem AtlasPage.Sound.mono {builds' : Nat} (h : p.Sound builds) (hle : builds ≤ builds') :
    p.Sound builds' :=
  ⟨h.loading, fun m hm => (h.held m hm).trans hle, fun b hb => (h.shown b hb).trans hle, h.later⟩

-- An answer moves the load on.
theorem AtlasPage.Sound.setLoad {l : Load} (h : p.Sound builds) (hbusy : p.load ≠ .idle)
    (hheld : ∀ map, l.map = some map → map ≤ builds) (hlater : ∀ build, p.Has build → l.From build) :
    ({ p with load := l } : AtlasPage).Sound builds :=
  ⟨fun hl => absurd (h.loading hl) hbusy, hheld, h.shown, hlater⟩

theorem loadAtlas_sound (h : p.Sound builds) : (loadAtlas p).Sound builds := by
  unfold loadAtlas
  split
  · exact h
  · exact ⟨fun hl => absurd hl.symm Bool.false_ne_true, fun _ hm => (nomatch hm), h.shown,
      fun _ _ => trivial⟩

-- A load that starts is on its way to whatever there is.
theorem loadAtlas_onTheWay (h : p.atlasLoading = false) : (loadAtlas p).OnTheWay build := by
  have hload : (loadAtlas p).load = .jsonSent := by
    unfold loadAtlas
    rw [if_neg (by simp [h])]
  exact Or.inr (Or.inl (hload ▸ ⟨trivial, trivial⟩))

theorem loadAtlas_version (p : AtlasPage) : (loadAtlas p).lastAtlasVersion = p.lastAtlasVersion := by
  unfold loadAtlas
  split
  · rfl
  · rfl

theorem onMessage_version {t : AtlasTock} (h : t.graphicsMode = false) :
    (p.onMessage t).lastAtlasVersion = -1 := by
  unfold AtlasPage.onMessage
  rw [if_neg (by simp [h]), if_pos h]

-- A packet in graphics mode starts a load, unless one is under way or its
-- version is no news.
theorem onMessage_onTheWay {t : AtlasTock} (hg : t.graphicsMode = true)
    (hsame : (t.atlasVersion : Int) = p.lastAtlasVersion → p.OnTheWay build)
    (hload : (t.atlasVersion : Int) ≠ p.lastAtlasVersion → p.atlasLoading = true →
      p.OnTheWay build) : (p.onMessage t).OnTheWay build := by
  unfold AtlasPage.onMessage
  by_cases hv : (t.atlasVersion : Int) = p.lastAtlasVersion
  · rw [if_neg (fun h => h.2 hv), if_neg (by simp [hg])]
    exact hsame hv
  · rw [if_pos ⟨hg, hv⟩]
    by_cases hl : p.atlasLoading = true
    · have hskip : loadAtlas { p with lastAtlasVersion := t.atlasVersion } =
          { p with lastAtlasVersion := t.atlasVersion } := if_pos hl
      rw [hskip]
      exact hload hv hl
    · exact loadAtlas_onTheWay (Bool.not_eq_true _ ▸ hl)

theorem onMessage_sound (h : p.Sound builds) (t : AtlasTock) : (p.onMessage t).Sound builds := by
  unfold AtlasPage.onMessage
  split
  · exact loadAtlas_sound ⟨h.loading, h.held, h.shown, h.later⟩
  · split
    · refine ⟨h.loading, h.held, ?_, ?_⟩
      · rintro b ⟨image, -, himage, -⟩
        cases himage
      · rintro b ⟨image, -, himage, -⟩
        cases himage
    · exact h

theorem jsonDone_sound {answer : JsonAnswer} (h : p.Sound builds)
    (hload : p.load = .jsonAnswered answer) : (WebFort.jsonDone p answer).Sound builds := by
  cases answer with
  | ok map tile =>
      refine ⟨fun hl => ?_, fun m hm => ?_, h.shown, fun b hb => ?_⟩
      · have hidle := h.loading hl
        rw [hload] at hidle
        cases hidle
      · exact h.held m (by rw [hload]; exact hm)
      · have hfrom := h.later b hb
        rwa [hload] at hfrom
  | notFound => exact ⟨fun _ => rfl, fun _ hm => (nomatch hm), h.shown, fun _ _ => trivial⟩
  | networkError => exact ⟨fun _ => rfl, fun _ hm => (nomatch hm), h.shown, fun _ _ => trivial⟩
  | otherStatus => exact ⟨fun _ => rfl, fun _ hm => (nomatch hm), h.shown, fun _ _ => trivial⟩
  | unparsable => exact ⟨fun _ => rfl, fun _ hm => (nomatch hm), h.shown, fun _ _ => trivial⟩

theorem jsonDone_onTheWay {answer : JsonAnswer} (h : p.OnTheWay build)
    (hload : p.load = .jsonAnswered answer) : (WebFort.jsonDone p answer).OnTheWay build := by
  unfold AtlasPage.OnTheWay at h
  rw [hload] at h
  cases answer with
  | ok map tile => exact h.imp id (Or.imp (fun hload => ⟨hload.1, trivial⟩) id)
  | notFound => exact Or.inr (Or.inr (Nat.succ_ne_zero _))
  | networkError => exact Or.inr (Or.inr (Nat.succ_ne_zero _))
  | otherStatus => exact h.imp id (Or.imp (fun hload => hload.2.elim) id)
  | unparsable => exact h.imp id (Or.imp (fun hload => hload.2.elim) id)

theorem pngDone_has {map image : Nat} :
    (WebFort.pngDone p map (some image)).Has build ↔
      (Load.pngAnswered map (some image)).From build := by
  constructor
  · rintro ⟨_, _, himage, hmap, hi, hm⟩
    obtain rfl := Option.some.inj himage
    obtain rfl := Option.some.inj hmap
    exact ⟨hm, hi⟩
  · rintro ⟨hm, hi⟩
    exact ⟨image, map, rfl, rfl, hi, hm⟩

theorem pngDone_sound {map : Nat} {image : Option Nat} (h : p.Sound builds)
    (hload : p.load = .pngAnswered map image) : (WebFort.pngDone p map image).Sound builds := by
  cases image with
  | none => exact ⟨fun _ => rfl, fun _ hm => (nomatch hm), h.shown, fun _ _ => trivial⟩
  | some image =>
      refine ⟨fun _ => rfl, fun _ hm => (nomatch hm), fun b hb => ?_, fun _ _ => trivial⟩
      have hmap : map ≤ builds := h.held map (by rw [hload]; rfl)
      exact (pngDone_has.mp hb).1.trans hmap

theorem pngDone_onTheWay {map : Nat} {image : Option Nat} (h : p.OnTheWay build)
    (hlater : p.Has build → p.load.From build) (hload : p.load = .pngAnswered map image) :
    (WebFort.pngDone p map image).OnTheWay build := by
  unfold AtlasPage.OnTheWay at h
  rw [hload] at h hlater
  cases image with
  | none => exact h.imp id (Or.imp (fun hload => hload.2.elim) id)
  | some image =>
      rcases h with hhas | hfrom | ht
      · exact Or.inl (pngDone_has.mpr (hlater hhas))
      · exact Or.inl (pngDone_has.mpr hfrom.1)
      · exact Or.inr (Or.inr ht)

end Page

section Answers

variable {h : AtlasHost} {fault : Option Fault} {build : Nat}

theorem json_map {map : Nat} (hm : (Load.jsonAnswered (h.json fault)).map = some map) :
    map = h.builds := by
  cases fault with
  | none =>
      rw [AtlasHost.json_none] at hm
      split at hm
      · exact (Option.some.inj hm).symm
      · cases hm
  | some fault =>
      cases fault with
      | status => cases hm
      | network => cases hm
      | garbled => cases hm

theorem json_from (hb : build ≤ h.builds) : (Load.jsonAnswered (h.json fault)).From build := by
  cases fault with
  | none =>
      rw [AtlasHost.json_none]
      split
      · exact hb
      · exact trivial
  | some fault =>
      cases fault with
      | status => exact trivial
      | network => exact trivial
      | garbled => exact trivial

theorem json_live (hf : ¬(fault = some .status ∨ fault = some .garbled)) :
    (Load.jsonAnswered (h.json fault)).Live := by
  cases fault with
  | none =>
      rw [AtlasHost.json_none]
      split
      · exact trivial
      · exact trivial
  | some fault =>
      cases fault with
      | status => exact hf (Or.inl rfl)
      | network => exact trivial
      | garbled => exact hf (Or.inr rfl)

theorem png_image {image : Nat} (hi : h.png fault = some image) : image = h.builds := by
  cases fault with
  | none =>
      rw [AtlasHost.png_none] at hi
      split at hi
      · exact (Option.some.inj hi).symm
      · cases hi
  | some fault => cases hi

end Answers

structure Attentive (w : AtlasWeb) : Prop where
  page : w.page.Sound w.host.builds
  version : w.graphics = false → w.page.lastAtlasVersion = -1
  announced : w.graphics = true → w.announced ≤ w.host.builds
  tocks : ∀ t ∈ w.tocks, t.build ≤ w.host.builds

def AtlasWeb.OnTheWay (w : AtlasWeb) : Prop := w.graphics = true → w.page.OnTheWay w.announced

namespace Attentive

variable {w : AtlasWeb}

theorem init : Attentive .init where
  page := by
    refine ⟨fun _ => rfl, fun _ hm => (nomatch hm), ?_, fun _ _ => trivial⟩
    rintro build ⟨image, -, himage, -⟩
    cases himage
  version _ := rfl
  announced h := by cases h
  tocks _ h := by cases h

theorem build (h : Attentive w) (tile : Nat × Nat) (r : BuildResult) :
    Attentive (w.next (.build tile r)) := by
  have hgrow : w.host.builds ≤ (w.host.after tile r).builds := by
    rw [AtlasHost.after_builds]
    omega
  exact ⟨h.page.mono hgrow, h.version, fun hg => (h.announced hg).trans hgrow,
    fun t ht => (h.tocks t ht).trans hgrow⟩

theorem tock (h : Attentive w) (graphicsMode : Bool) : Attentive (w.next (.tock graphicsMode)) := by
  refine ⟨h.page, h.version, h.announced, fun t ht => ?_⟩
  rcases List.mem_append.mp ht with ht | ht
  · exact h.tocks t ht
  · rw [List.mem_singleton.mp ht]
    exact Nat.le_refl w.host.builds

theorem fire (h : Attentive w) : Attentive (w.next .fire) := by
  have hsound : ({ w.page with timers := w.page.timers - 1 } : AtlasPage).Sound w.host.builds :=
    ⟨h.page.loading, h.page.held, h.page.shown, h.page.later⟩
  exact ⟨loadAtlas_sound hsound, fun hg => (loadAtlas_version _).trans (h.version hg), h.announced,
    h.tocks⟩

theorem receive (h : Attentive w) (hne : w.tocks ≠ []) : Attentive (w.next .receive) := by
  obtain ⟨t, rest, htocks⟩ := List.exists_cons_of_ne_nil hne
  rw [AtlasWeb.next_receive htocks]
  refine ⟨onMessage_sound h.page t, fun hg => onMessage_version hg, fun hg => ?_,
    fun t' ht' => h.tocks t' (htocks ▸ List.mem_cons_of_mem _ ht')⟩
  have hmode : t.graphicsMode = true := hg
  show (if t.graphicsMode = true then t.build else w.announced) ≤ w.host.builds
  rw [if_pos hmode]
  exact h.tocks t (htocks ▸ List.mem_cons_self)

theorem answerJson (h : Attentive w) {fault : Option Fault} (hen : w.page.load = .jsonSent) :
    Attentive (w.next (.answerJson fault)) := by
  have hbusy : w.page.load ≠ .idle := by
    rw [hen]
    exact nofun
  exact ⟨h.page.setLoad hbusy (fun map hm => Nat.le_of_eq (json_map hm))
    (fun b hb => json_from (h.page.shown b hb)), h.version, h.announced, h.tocks⟩

theorem jsonDone (h : Attentive w) {answer : JsonAnswer}
    (hen : w.page.load = .jsonAnswered answer) : Attentive (w.next .jsonDone) := by
  rw [AtlasWeb.next_jsonDone hen]
  refine ⟨jsonDone_sound h.page hen, fun hg => ?_, h.announced, h.tocks⟩
  refine Eq.trans ?_ (h.version hg)
  cases answer <;> rfl

-- The image is as new as the server's atlas, the map is the old one.
theorem pngAnswered_from {fault : Option Fault} {map b : Nat}
    (hen : w.page.load = .pngSent map) (hb : w.page.load.From b) (hle : b ≤ w.host.builds) :
    (Load.pngAnswered map (w.host.png fault)).From b := by
  rw [hen] at hb
  cases himage : w.host.png fault with
  | none => exact trivial
  | some image => exact ⟨hb, hle.trans_eq (png_image himage).symm⟩

theorem answerPng (h : Attentive w) {fault : Option Fault} {map : Nat}
    (hen : w.page.load = .pngSent map) : Attentive (w.next (.answerPng fault)) := by
  have hbusy : w.page.load ≠ .idle := by
    rw [hen]
    exact nofun
  rw [AtlasWeb.next_answerPng fault hen]
  refine ⟨h.page.setLoad hbusy (fun m hm => ?_) (fun b hb =>
    pngAnswered_from hen (h.page.later b hb) (h.page.shown b hb)), h.version, h.announced, h.tocks⟩
  obtain rfl := Option.some.inj hm
  exact h.page.held map (by rw [hen]; rfl)

theorem pngDone (h : Attentive w) {map : Nat} {image : Option Nat}
    (hen : w.page.load = .pngAnswered map image) : Attentive (w.next .pngDone) := by
  rw [AtlasWeb.next_pngDone hen]
  refine ⟨pngDone_sound h.page hen, fun hg => ?_, h.announced, h.tocks⟩
  refine Eq.trans ?_ (h.version hg)
  cases image <;> rfl

theorem next (h : Attentive w) {m : AtlasMove} (hen : w.enabled m) : Attentive (w.next m) := by
  cases m with
  | build tile result => exact h.build tile result
  | tock graphicsMode => exact h.tock graphicsMode
  | receive => exact h.receive hen
  | fire => exact h.fire
  | answerJson fault => exact h.answerJson hen
  | jsonDone =>
      obtain ⟨answer, hload⟩ := hen
      exact h.jsonDone hload
  | answerPng fault =>
      obtain ⟨map, hload⟩ := hen
      exact h.answerPng hload
  | pngDone =>
      obtain ⟨map, image, hload⟩ := hen
      exact h.pngDone hload

-- A step that forgets nothing keeps what has been announced on its way.
theorem fire_onTheWay (hw : w.OnTheWay) (hc : NothingForgotten w .fire) :
    (w.next .fire).OnTheWay := by
  intro hg
  by_cases hl : w.page.atlasLoading = true
  · have hnext : w.next .fire =
        { w with page := { w.page with timers := w.page.timers - 1 } } :=
      congrArg (fun p => { w with page := p }) (if_pos hl)
    rw [hnext]
    rcases hw hg with hhas | hload | ht
    · exact Or.inl hhas
    · exact Or.inr (Or.inl hload)
    · by_cases hone : w.page.timers = 1
      · exact (hc hg hl hone).imp id Or.inl
      · exact Or.inr (Or.inr (show w.page.timers - 1 ≠ 0 by omega))
  · exact loadAtlas_onTheWay (Bool.not_eq_true _ ▸ hl)

theorem receive_onTheWay (h : Attentive w) (hw : w.OnTheWay) (hne : w.tocks ≠ [])
    (hc : NothingForgotten w .receive) : (w.next .receive).OnTheWay := by
  obtain ⟨t, rest, htocks⟩ := List.exists_cons_of_ne_nil hne
  have hc' := hc t rest htocks
  rw [AtlasWeb.next_receive htocks]
  intro hg
  have hmode : t.graphicsMode = true := hg
  have hnew : (if t.graphicsMode = true then t.build else w.announced) = t.build := if_pos hmode
  show (w.page.onMessage t).OnTheWay (if t.graphicsMode = true then t.build else w.announced)
  rw [hnew]
  refine onMessage_onTheWay hmode (fun hsame => ?_) fun hother hl => ?_
  · have hseen := hc' hmode
    rw [if_pos hsame] at hseen
    rcases hseen with heq | hway
    · -- The page is in graphics mode, or the version would be news.
      have hgraphics : w.graphics = true := by
        by_contra hoff
        have hlast := h.version (Bool.not_eq_true _ ▸ hoff)
        omega
      rw [heq]
      exact hw hgraphics
    · exact hway
  · have hseen := hc' hmode
    rw [if_neg hother] at hseen
    exact hseen hl

theorem answerJson_onTheWay (h : Attentive w) {fault : Option Fault}
    (hc : NothingForgotten w (.answerJson fault)) : (w.next (.answerJson fault)).OnTheWay := by
  intro hg
  by_cases hf : fault = some .status ∨ fault = some .garbled
  · exact (hc hg hf).imp id Or.inr
  · exact Or.inr (Or.inl ⟨json_from (h.announced hg), json_live hf⟩)

theorem answerPng_onTheWay (h : Attentive w) (hw : w.OnTheWay) {fault : Option Fault} {map : Nat}
    (hen : w.page.load = .pngSent map) (hc : NothingForgotten w (.answerPng fault)) :
    (w.next (.answerPng fault)).OnTheWay := by
  rw [AtlasWeb.next_answerPng fault hen]
  intro hg
  cases himage : w.host.png fault with
  | none => exact (hc hg himage).imp id Or.inr
  | some image =>
      rcases hw hg with hhas | hload | ht
      · exact Or.inl hhas
      · have hnew : (Load.pngAnswered map (w.host.png fault)).From w.announced :=
          pngAnswered_from hen hload.1 (h.announced hg)
        rw [himage] at hnew
        exact Or.inr (Or.inl ⟨hnew, trivial⟩)
      · exact Or.inr (Or.inr ht)

theorem next_onTheWay (h : Attentive w) (hw : w.OnTheWay) {m : AtlasMove} (hen : w.enabled m)
    (hc : NothingForgotten w m) : (w.next m).OnTheWay := by
  cases m with
  | build tile result => exact hw
  | tock graphicsMode => exact hw
  | receive => exact h.receive_onTheWay hw hen hc
  | fire => exact fire_onTheWay hw hc
  | answerJson fault => exact h.answerJson_onTheWay hc
  | jsonDone =>
      obtain ⟨answer, hload⟩ := hen
      rw [AtlasWeb.next_jsonDone hload]
      exact fun hg => jsonDone_onTheWay (hw hg) hload
  | answerPng fault =>
      obtain ⟨map, hload⟩ := hen
      exact h.answerPng_onTheWay hw hload hc
  | pngDone =>
      obtain ⟨map, image, hload⟩ := hen
      rw [AtlasWeb.next_pngDone hload]
      exact fun hg => pngDone_onTheWay (hw hg) (h.page.later _) hload

end Attentive

-- What has been announced is on its way until it is forgotten.
theorem onTheWay_or_forgotten (ms : List AtlasMove) (hv : atlasWeb.Valid .init ms) :
    Attentive (atlasWeb.exec .init ms) ∧
      ((atlasWeb.exec .init ms).graphics = true →
        (atlasWeb.exec .init ms).page.OnTheWay (atlasWeb.exec .init ms).announced ∨
          Forgotten ms) := by
  refine Machine.history_invariant (M := atlasWeb) (fun done w => Attentive w ∧
    (w.graphics = true → w.page.OnTheWay w.announced ∨ Forgotten done)) ?_ ?_ ms hv
  · exact ⟨Attentive.init, fun hg => absurd hg Bool.false_ne_true⟩
  · rintro done m ⟨h, hway⟩ - hen
    refine ⟨h.next hen, fun hg => ?_⟩
    by_cases hc : NothingForgotten (atlasWeb.exec .init done) m
    · by_cases hw : (atlasWeb.exec .init done).OnTheWay
      · exact Or.inl (h.next_onTheWay hw hen hc hg)
      · obtain ⟨hgraphics, hlost⟩ := Classical.not_imp.mp hw
        exact Or.inr (((hway hgraphics).resolve_left hlost).step hg)
    · exact Or.inr (Machine.since_of_step hc)

-- In every state of every run in which a page that has forgotten something
-- leaves graphics mode before it rests.
theorem announced_atlas_arrives (ms : List AtlasMove) (hv : atlasWeb.Valid .init ms)
    (hc : ∀ done rest, ms = done ++ rest → (atlasWeb.exec .init done).AtRest → ¬Forgotten done) :
    ∀ done rest, ms = done ++ rest → (atlasWeb.exec .init done).Converged := by
  intro done rest he hgraphics hloading htimers
  obtain ⟨h, hway⟩ := onTheWay_or_forgotten done
    ((atlasWeb.valid_append _ done rest).mp (he ▸ hv)).1
  rcases hway hgraphics with (hhas | ⟨-, hlive⟩ | ht) | hforgotten
  · exact hhas
  · rw [h.page.loading hloading] at hlive
    exact hlive.elim
  · exact absurd htimers ht
  · exact absurd hforgotten (hc done rest he ⟨hgraphics, hloading, htimers⟩)

theorem not_forgotten_of_each {ms : List AtlasMove}
    (hc : atlasWeb.Each NothingForgotten .init ms) (done rest : List AtlasMove)
    (he : ms = done ++ rest) : ¬Forgotten done := by
  rintro ⟨before, m, after, rfl, hforgets, -⟩
  subst he
  obtain ⟨hdone, -⟩ := (atlasWeb.each_append _ _ _ _).mp hc
  exact hforgets ((atlasWeb.each_append _ _ before (m :: after)).mp hdone).2.1

theorem announced_atlas_arrives_sample :
    let ms := [Sample.published] ++ Sample.announce ++ Sample.loadJson ++ Sample.loadPng
    (atlasWeb.exec .init ms).page.Has 1 := by
  intro ms
  have hv : atlasWeb.Valid .init ms :=
    ⟨trivial, trivial, List.cons_ne_nil _ _, rfl, ⟨_, rfl⟩, ⟨_, rfl⟩, ⟨_, _, rfl⟩, trivial⟩
  have hc : atlasWeb.Each NothingForgotten .init ms := by
    refine ⟨trivial, trivial, fun t rest htocks _ => ?_, fun _ hf => ?_, trivial, fun _ himage => ?_,
      trivial, trivial⟩
    · obtain ⟨rfl, rfl⟩ := List.cons.inj htocks
      rw [if_neg (by decide)]
      exact fun hl => absurd hl Bool.false_ne_true
    · rcases hf with hf | hf
      · cases hf
      · cases hf
    · cases himage
  exact announced_atlas_arrives ms hv (fun done rest he _ => not_forgotten_of_each hc done rest he)
    ms [] (List.append_nil ms).symm rfl rfl rfl

-- The second atlas is announced while the first one's map is in hand.
theorem announcement_forgotten :
    let ms := [Sample.published] ++ Sample.announce ++ Sample.loadJson ++ [Sample.published] ++
      Sample.announce ++ Sample.loadPng
    atlasWeb.Valid .init ms ∧ ¬(atlasWeb.exec .init ms).Converged := by
  intro ms
  refine ⟨⟨trivial, trivial, List.cons_ne_nil _ _, rfl, ⟨_, rfl⟩, trivial, trivial,
    List.cons_ne_nil _ _, ⟨_, rfl⟩, ⟨_, _, rfl⟩, trivial⟩, fun h => ?_⟩
  obtain ⟨image, map, -, hmap, -, hle⟩ := h rfl rfl rfl
  obtain rfl : 1 = map := Option.some.inj hmap
  exact absurd hle (by decide)

end WebFort
