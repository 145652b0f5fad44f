import WebFort.AtlasPage

namespace WebFort

open Library

-- What is shown comes from one build.
def AtlasPage.Paired (p : AtlasPage) : Prop :=
  ∀ image map, p.atlasImg = some image → p.atlasMap = some map → image = map

-- No atlas was published between the two answers to a load that is swapped in.
def SwapInTime (w : AtlasWeb) : AtlasMove → Prop
  | .pngDone => (∃ map image, w.page.load = .pngAnswered map (some image)) → w.late = false
  | _ => True

-- The builds a load has seen, against the number of builds there are.
def Load.Tagged (builds : Nat) (late : Bool) : Load → Prop
  | .jsonAnswered (.ok map _) => map ≤ builds ∧ (map = builds ↔ late = false)
  | .pngSent map => map ≤ builds ∧ (map = builds ↔ late = false)
  | .pngAnswered map (some image) => map = image ↔ late = false
  | _ => True

def AtlasWeb.Tagged (w : AtlasWeb) : Prop := w.page.load.Tagged w.host.builds w.late

section Page

variable {p : AtlasPage} {builds : Nat} {late : Bool}

theorem loadAtlas_load (p : AtlasPage) :
    (loadAtlas p).load = p.load ∨ (loadAtlas p).load = .jsonSent := by
  unfold loadAtlas
  split
  · exact Or.inl rfl
  · exact Or.inr rfl

theorem loadAtlas_paired : (loadAtlas p).Paired ↔ p.Paired := by
  unfold loadAtlas
  split
  · exact Iff.rfl
  · exact Iff.rfl

theorem onMessage_load (p : AtlasPage) (t : AtlasTock) :
    (p.onMessage t).load = p.load ∨ (p.onMessage t).load = .jsonSent := by
  unfold AtlasPage.onMessage
  split
  · exact loadAtlas_load _
  · split
    · exact Or.inl rfl
    · exact Or.inl rfl

theorem onMessage_paired (h : p.Paired) (t : AtlasTock) : (p.onMessage t).Paired := by
  unfold AtlasPage.onMessage
  split
  · exact loadAtlas_paired.mpr h
  · split
    · intro image map himage
      cases himage
    · exact h

theorem tagged_of_load {l l' : Load} (h : l.Tagged builds late) (hl : l' = l ∨ l' = .jsonSent) :
    l'.Tagged builds late := by
  rcases hl with rfl | rfl
  · exact h
  · exact trivial

theorem jsonDone_paired (h : p.Paired) (answer : JsonAnswer) :
    (WebFort.jsonDone p answer).Paired := by
  cases answer <;> exact h

theorem jsonDone_tagged {answer : JsonAnswer} (h : (Load.jsonAnswered answer).Tagged builds late) :
    (WebFort.jsonDone p answer).load.Tagged builds late := by
  cases answer with
  | ok build tile => exact h
  | notFound => exact trivial
  | networkError => exact trivial
  | otherStatus => exact trivial
  | unparsable => exact trivial

theorem pngDone_tagged (map : Nat) (image : Option Nat) :
    (WebFort.pngDone p map image).load.Tagged builds late := by
  cases image with
  | some image => exact trivial
  | none => exact trivial

end Page

theorem AtlasHost.after_builds (h : AtlasHost) (tile : Nat × Nat) (r : BuildResult) :
    (h.after tile r).builds = h.builds + if r = .built then 1 else 0 := by
  cases r <;> rfl

-- A publication makes what has been answered before it late.
theorem tagged_build {l : Load} {builds : Nat} {late : Bool} (h : l.Tagged builds late)
    (r : BuildResult) :
    l.Tagged (builds + if r = .built then 1 else 0) (late || (r = .built && l.waits)) := by
  by_cases hr : r = .built
  · have hgrow : ∀ map, map ≤ builds → map ≤ builds + 1 ∧ (map = builds + 1 ↔ true = false) :=
      fun map hmap => ⟨by omega, iff_of_false (by omega) (by decide)⟩
    simp only [hr, if_true, decide_true, Bool.true_and]
    cases l with
    | idle => exact trivial
    | jsonSent => exact trivial
    | jsonAnswered answer =>
        cases answer with
        | ok map tile =>
            rw [Load.waits, Bool.or_true]
            exact hgrow map h.1
        | notFound => exact trivial
        | networkError => exact trivial
        | otherStatus => exact trivial
        | unparsable => exact trivial
    | pngSent map =>
        rw [Load.waits, Bool.or_true]
        exact hgrow map h.1
    | pngAnswered map image =>
        have hwaits : (Load.pngAnswered map image).waits = false := rfl
        rw [hwaits, Bool.or_false]
        cases image with
        | none => exact trivial
        | some image => exact h
  · simpa only [hr, if_false, decide_false, Bool.false_and, Bool.or_false, Nat.add_zero] using h

theorem AtlasWeb.Tagged.next {w : AtlasWeb} {m : AtlasMove} (h : w.Tagged)
    (hen : w.enabled m) : (w.next m).Tagged := by
  cases m with
  | build tile result =>
      show Load.Tagged (w.host.after tile result).builds _ _
      rw [AtlasHost.after_builds]
      exact tagged_build h result
  | tock graphicsMode => exact h
  | receive =>
      obtain ⟨t, rest, htocks⟩ := List.exists_cons_of_ne_nil hen
      rw [AtlasWeb.next_receive htocks]
      exact tagged_of_load h (onMessage_load _ _)
  | fire => exact tagged_of_load h (loadAtlas_load _)
  | answerJson fault =>
      show Load.Tagged w.host.builds false (.jsonAnswered (w.host.json fault))
      cases fault with
      | none =>
          rw [AtlasHost.json_none]
          split
          · exact ⟨Nat.le_refl _, iff_of_true rfl rfl⟩
          · exact trivial
      | some fault => cases fault <;> exact trivial
  | jsonDone =>
      obtain ⟨answer, hload⟩ := hen
      unfold AtlasWeb.Tagged at h
      rw [hload] at h
      rw [AtlasWeb.next_jsonDone hload]
      exact jsonDone_tagged h
  | answerPng fault =>
      obtain ⟨map, hload⟩ := hen
      unfold AtlasWeb.Tagged at h
      rw [hload] at h
      rw [AtlasWeb.next_answerPng fault hload]
      show Load.Tagged w.host.builds w.late (.pngAnswered map (w.host.png fault))
      cases fault with
      | none =>
          rw [AtlasHost.png_none]
          split
          · exact h.2
          · exact trivial
      | some fault => exact trivial
  | pngDone =>
      obtain ⟨map, image, hload⟩ := hen
      rw [AtlasWeb.next_pngDone hload]
      exact pngDone_tagged map image

-- Only a swap can bring two builds together.
theorem paired_next_iff {w : AtlasWeb} {m : AtlasMove} (htag : w.Tagged) (hpair : w.page.Paired)
    (hen : w.enabled m) : (w.next m).page.Paired ↔ SwapInTime w m := by
  cases m with
  | build tile result => exact iff_of_true hpair trivial
  | tock graphicsMode => exact iff_of_true hpair trivial
  | receive =>
      obtain ⟨t, rest, htocks⟩ := List.exists_cons_of_ne_nil hen
      rw [AtlasWeb.next_receive htocks]
      exact iff_of_true (onMessage_paired hpair t) trivial
  | fire => exact iff_of_true (loadAtlas_paired.mpr hpair) trivial
  | answerJson fault => exact iff_of_true hpair trivial
  | jsonDone =>
      obtain ⟨answer, hload⟩ := hen
      rw [AtlasWeb.next_jsonDone hload]
      exact iff_of_true (jsonDone_paired hpair answer) trivial
  | answerPng fault =>
      obtain ⟨map, hload⟩ := hen
      rw [AtlasWeb.next_answerPng fault hload]
      exact iff_of_true hpair trivial
  | pngDone =>
      obtain ⟨map, image, hload⟩ := hen
      unfold AtlasWeb.Tagged at htag
      rw [hload] at htag
      rw [AtlasWeb.next_pngDone hload]
      unfold SwapInTime
      simp only [hload]
      cases image with
      | none =>
          refine iff_of_true hpair ?_
          rintro ⟨_, _, hnone⟩
          cases hnone
      | some image =>
          have hswap : (WebFort.pngDone w.page map (some image)).Paired ↔ map = image := by
            constructor
            · intro h
              exact (h image map rfl rfl).symm
            · rintro rfl _ _ himage hmap
              exact (Option.some.inj himage).symm.trans (Option.some.inj hmap)
          rw [hswap]
          refine htag.trans ⟨fun h _ => h, fun h => h ⟨map, image, rfl⟩⟩

-- What is shown comes from one build in every state of a run exactly when no
-- swap of the run is late.
theorem atlas_paired_iff (ms : List AtlasMove) (hv : atlasWeb.Valid .init ms) :
    (∀ done rest, ms = done ++ rest → (atlasWeb.exec .init done).page.Paired) ↔
      atlasWeb.Each SwapInTime .init ms := by
  have hstart : AtlasWeb.init.Tagged ∧ AtlasWeb.init.page.Paired :=
    ⟨trivial, fun _ _ h => by cases h⟩
  have hiff := atlasWeb.always_iff_each (fun w => w.Tagged ∧ w.page.Paired) SwapInTime
    (fun w m h hen => (and_iff_right (h.1.next hen)).trans (paired_next_iff h.1 h.2 hen))
    .init ms hstart hv
  rw [← hiff]
  refine ⟨fun h done rest hms => ⟨?_, h done rest hms⟩, fun h done rest hms => (h done rest hms).2⟩
  subst hms
  exact atlasWeb.exec_invariant AtlasWeb.Tagged (fun _ _ h hen => h.next hen) .init done hstart.1
    ((atlasWeb.valid_append _ _ _).mp hv).1

namespace Sample

-- A packet in graphics mode makes the page load an atlas.
def announce : List AtlasMove := [.tock true, .receive]

def loadJson : List AtlasMove := [.answerJson none, .jsonDone]

def loadPng : List AtlasMove := [.answerPng none, .pngDone]

def published : AtlasMove := .build (16, 16) .built

end Sample

theorem atlas_paired_iff_sample :
    (atlasWeb.exec .init ([Sample.published] ++ Sample.announce ++ Sample.loadJson ++
      Sample.loadPng)).page.Paired :=
  (atlas_paired_iff ([Sample.published] ++ Sample.announce ++ Sample.loadJson ++ Sample.loadPng)
    ⟨trivial, trivial, List.cons_ne_nil _ _, rfl, ⟨_, rfl⟩, ⟨_, rfl⟩, ⟨_, _, rfl⟩, trivial⟩).mpr
    ⟨trivial, trivial, trivial, trivial, trivial, trivial, fun _ => rfl, trivial⟩ _ [] rfl

-- The second atlas is published after the answer with the first one's map.
theorem map_of_older_build :
    let ms := [Sample.published] ++ Sample.announce ++ Sample.loadJson ++ [Sample.published] ++
      Sample.loadPng
    atlasWeb.Valid .init ms ∧ (atlasWeb.exec .init ms).page.atlasMap = some 1 ∧
      (atlasWeb.exec .init ms).page.atlasImg = some 2 :=
  ⟨⟨trivial, trivial, List.cons_ne_nil _ _, rfl, ⟨_, rfl⟩, trivial, ⟨_, rfl⟩, ⟨_, _, rfl⟩, trivial⟩, rfl, rfl⟩

end WebFort
