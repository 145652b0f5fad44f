import WebFort.Atlas.Texels

namespace WebFort

open Library

-- The bytes of a pixel in the order they are written.
def RGBA.byte (c : RGBA) : Nat → UInt8
  | 0 => c.r
  | 1 => c.g
  | 2 => c.b
  | _ => c.a

-- The area of the texture with index idx.
def InCell (t : Textures) (idx x y : Nat) : Prop :=
  (destX t idx ≤ x ∧ x < destX t idx + t.tw) ∧ destY t idx ≤ y ∧ y < destY t idx + t.th

section Offsets

variable {w x x' y y' i i' : Nat}

theorem mem_pixelWrites {oi : Nat} {c : RGBA} {u : Nat × UInt8} :
    u ∈ pixelWrites oi c ↔ ∃ i, i < 4 ∧ u = (oi + i, c.byte i) := by
  constructor
  · intro h
    simp only [pixelWrites, List.mem_cons, List.not_mem_nil, or_false] at h
    rcases h with h | h | h | h
    · exact ⟨0, by decide, h⟩
    · exact ⟨1, by decide, h⟩
    · exact ⟨2, by decide, h⟩
    · exact ⟨3, by decide, h⟩
  · rintro ⟨i, hi, rfl⟩
    have hcases : i = 0 ∨ i = 1 ∨ i = 2 ∨ i = 3 := by omega
    rcases hcases with rfl | rfl | rfl | rfl
    all_goals simp [pixelWrites, RGBA.byte]

theorem pixelOffset_inj (hx : x < w) (hx' : x' < w) (hi : i < 4) (hi' : i' < 4)
    (h : pixelOffset w x y + i = pixelOffset w x' y' + i') : x = x' ∧ y = y' ∧ i = i' := by
  unfold pixelOffset at h
  have hflat : y * w + x = y' * w + x' := by omega
  have hy : y = y' := by
    have hdiv := congrArg (· / w) hflat
    simpa [Nat.mul_comm _ w, Nat.mul_add_div (Nat.zero_lt_of_lt hx), Nat.div_eq_of_lt hx,
      Nat.div_eq_of_lt hx'] using hdiv
  subst hy
  omega

theorem pixelOffset_lt {h : Nat} (hx : x < w) (hy : y < h) (hi : i < 4) :
    pixelOffset w x y + i < w * h * 4 := by
  have hflat : y * w + x < w * h := by
    calc y * w + x < y * w + w := by omega
      _ = (y + 1) * w := (Nat.succ_mul _ _).symm
      _ ≤ h * w := Nat.mul_le_mul_right _ hy
      _ = w * h := Nat.mul_comm _ _
  unfold pixelOffset
  omega

end Offsets

section Pixels

variable {t : Textures} {tp idx : Nat}

theorem sheetCopying_size {sheet : Sheet} {ch tw th : Nat} {k : Copying}
    (h : sheetCopying sheet ch tw th = some k) : k.w = tw ∧ k.h = th := by
  unfold sheetCopying at h
  simp only at h
  split at h
  · cases h
  · obtain rfl := Option.some.inj h
    exact ⟨rfl, rfl⟩

-- No more than a tile is copied.
theorem copying_size {k : Copying} (h : copying t tp = some k) : k.w ≤ t.tw ∧ k.h ≤ t.th := by
  have hdisk : (t.texposToChar tp).bind (fontCopying t) = some k → k.w ≤ t.tw ∧ k.h ≤ t.th := by
    intro h
    obtain ⟨ch, -, hfont⟩ := Option.bind_eq_some_iff.mp h
    obtain ⟨file, -, hfile⟩ := List.exists_of_findSome?_eq_some hfont
    split at hfile
    · obtain ⟨sheet, -, hsheet⟩ := Option.bind_eq_some_iff.mp hfile
      obtain ⟨hw, hh⟩ := sheetCopying_size hsheet
      exact ⟨hw.le, hh.le⟩
    · cases hfile
  unfold copying at h
  simp only at h
  split at h
  · split at h
    · obtain rfl := Option.some.inj h
      exact ⟨min_le_right _ _, min_le_right _ _⟩
    · exact hdisk h
  · exact hdisk h

theorem mem_zipIdx_iff : (tp, idx) ∈ (allTexpos t).zipIdx ↔ (allTexpos t)[idx]? = some tp := by
  rw [List.mk_mem_zipIdx_iff_getElem?]

theorem zipIdx_lt (h : (tp, idx) ∈ (allTexpos t).zipIdx) : idx < (cells t).length := by
  rw [← length_allTexpos]
  exact (List.getElem?_eq_some_iff.mp (mem_zipIdx_iff.mp h)).1

theorem mem_turnWrites {u : Nat × UInt8} : u ∈ turnWrites t (tp, idx) ↔
    ∃ k, copying t tp = some k ∧ ∃ px py, px < k.w ∧ py < k.h ∧ ∃ c, k.pixel px py = some c ∧
      ∃ i, i < 4 ∧
        u = (pixelOffset (atlasW t) (destX t idx + px) (destY t idx + py) + i, c.byte i) := by
  unfold turnWrites
  cases copying t tp with
  | none => simp
  | some k =>
      simp only [Option.elim_some, Copying.writes, List.mem_flatMap, List.mem_range,
        Option.some.injEq, exists_eq_left']
      constructor
      · rintro ⟨py, hpy, px, hpx, hu⟩
        cases hc : k.pixel px py with
        | none => simp [hc] at hu
        | some c =>
            rw [hc] at hu
            exact ⟨px, py, hpx, hpy, c, hc, mem_pixelWrites.mp hu⟩
      · rintro ⟨px, py, hpx, hpy, c, hc, hu⟩
        exact ⟨py, hpy, px, hpx, by rw [hc]; exact mem_pixelWrites.mpr hu⟩

theorem atlas_size (t : Textures) : (atlasImage t).w = atlasW t ∧ (atlasImage t).h = atlasH t := by
  unfold atlasImage atlasW atlasH
  rw [length_allTexpos]
  exact ⟨rfl, rfl⟩

theorem inCell_image (h : (tp, idx) ∈ (allTexpos t).zipIdx) {px py : Nat} (hx : px < t.tw)
    (hy : py < t.th) : destX t idx + px < atlasW t ∧ destY t idx + py < atlasH t := by
  rw [atlasW, atlasH, length_allTexpos]
  exact cell_in_image (zipIdx_lt h) hx hy

-- A write of a turn is one of a byte of the image, in the cell of the turn.
theorem turnWrites_spec (h : (tp, idx) ∈ (allTexpos t).zipIdx) {u : Nat × UInt8}
    (hu : u ∈ turnWrites t (tp, idx)) :
    ∃ x y i, InCell t idx x y ∧ x < atlasW t ∧ y < atlasH t ∧ i < 4 ∧
      u = (pixelOffset (atlasW t) x y + i, ((atlasImage t).pixel x y).byte i) := by
  obtain ⟨k, hk, px, py, hpx, hpy, c, hc, i, hi, rfl⟩ := mem_turnWrites.mp hu
  obtain ⟨hw, hh⟩ := copying_size hk
  have htile : k.tile px py = c := by simp [Copying.tile, hpx, hpy, hc]
  have hcell : cellAt t idx = some (tp, k.tile) := by rw [cellAt_of_zipIdx h, hk, Option.map_some]
  have hpixel := atlasImage_cell hcell (show px < t.tw by omega) (show py < t.th by omega)
  obtain ⟨hx, hy⟩ := inCell_image h (show px < t.tw by omega) (show py < t.th by omega)
  refine ⟨_, _, i, ?_, hx, hy, hi, ?_⟩
  · unfold InCell
    omega
  · rw [destX, destY, hpixel, htile]

def allWrites (t : Textures) : List (Nat × UInt8) := (allTexpos t).zipIdx.flatMap (turnWrites t)

theorem agree_allWrites (t : Textures) : Agree (allWrites t) := by
  intro u hu u' hu' hsame
  obtain ⟨e, he, hue⟩ := List.mem_flatMap.mp hu
  obtain ⟨e', he', hue'⟩ := List.mem_flatMap.mp hu'
  obtain ⟨x, y, i, -, hx, -, hi, rfl⟩ := turnWrites_spec he hue
  obtain ⟨x', y', i', -, hx', -, hi', rfl⟩ := turnWrites_spec he' hue'
  obtain ⟨rfl, rfl, rfl⟩ := pixelOffset_inj hx hx' hi hi' hsame
  rfl

theorem foldl_copyTurn_pixels (es : List (Nat × Nat)) (b : Build) :
    (es.foldl (copyTurn t) b).pixels = store (es.flatMap (turnWrites t)) b.pixels := by
  induction es generalizing b with
  | nil => rfl
  | cons e es ih =>
      rw [List.foldl_cons, ih, List.flatMap_cons, store_append]
      congr 1
      unfold copyTurn turnWrites
      cases copying t e.1 <;> rfl

theorem build_pixels (t : Textures) :
    (build t).pixels = store (allWrites t) (List.replicate (atlasW t * atlasH t * 4) 0) :=
  foldl_copyTurn_pixels _ _

theorem length_pixels (t : Textures) : (build t).pixels.length = atlasW t * atlasH t * 4 := by
  rw [build_pixels, length_store, List.length_replicate]

theorem tile_clear_or_copied (k : Copying) (px py : Nat) : k.tile px py = .clear ∨
    (px < k.w ∧ py < k.h ∧ k.pixel px py = some (k.tile px py)) := by
  unfold Copying.tile
  split
  case isTrue hsize =>
      cases hc : k.pixel px py with
      | none => exact Or.inl rfl
      | some c => exact Or.inr ⟨hsize.1, hsize.2, rfl⟩
  case isFalse => exact Or.inl rfl

-- The place of a pixel in the cell it is in.
theorem place_of_pixel {x : Nat} (hx : x < atlasW t) (y : Nat) :
    destX t (y / t.th * 64 + x / t.tw) + x % t.tw = x ∧
      destY t (y / t.th * 64 + x / t.tw) + y % t.th = y := by
  have hcol : x / t.tw < 64 := by
    refine Nat.div_lt_of_lt_mul (lt_of_lt_of_le hx ?_)
    rw [atlasW, Nat.mul_comm]
    exact Nat.mul_le_mul_left _ (min_le_right _ _)
  have hmod : (y / t.th * 64 + x / t.tw) % 64 = x / t.tw := by
    rw [Nat.mul_comm, Nat.mul_add_mod, Nat.mod_eq_of_lt hcol]
  have hdiv : (y / t.th * 64 + x / t.tw) / 64 = y / t.th := by
    rw [Nat.mul_comm, Nat.mul_add_div (by decide), Nat.div_eq_of_lt hcol, Nat.add_zero]
  rw [destX, destY, hmod, hdiv]
  exact ⟨Nat.div_add_mod' x t.tw, Nat.div_add_mod' y t.th⟩

-- A pixel that no turn copies is clear.
theorem copied_or_clear {x y : Nat} (hx : x < atlasW t) (hy : y < atlasH t) :
    (atlasImage t).pixel x y = .clear ∨
      ∀ i, i < 4 → (pixelOffset (atlasW t) x y + i, ((atlasImage t).pixel x y).byte i) ∈
        allWrites t := by
  obtain ⟨hwidth, hheight⟩ := atlas_size t
  rw [atlasImage_pixel (hwidth ▸ hx) (hheight ▸ hy)]
  cases hcell : cellAt t (y / t.th * 64 + x / t.tw) with
  | none => exact Or.inl rfl
  | some cell =>
      obtain ⟨tp, hzip⟩ : ∃ tp, (tp, y / t.th * 64 + x / t.tw) ∈ (allTexpos t).zipIdx := by
        have hlt : y / t.th * 64 + x / t.tw < (allTexpos t).length := by
          obtain ⟨tp, tile⟩ := cell
          rw [length_allTexpos]
          exact cellAt_lt hcell
        exact ⟨_, mem_zipIdx_iff.mpr (List.getElem?_eq_getElem hlt)⟩
      rw [cellAt_of_zipIdx hzip] at hcell
      obtain ⟨k, hk, rfl⟩ := Option.map_eq_some_iff.mp hcell
      refine (tile_clear_or_copied k (x % t.tw) (y % t.th)).imp_right ?_
      rintro ⟨hpx, hpy, hc⟩ i hi
      obtain ⟨hdx, hdy⟩ := place_of_pixel hx y
      refine List.mem_flatMap.mpr ⟨_, hzip, ?_⟩
      refine mem_turnWrites.mpr ⟨k, hk, _, _, hpx, hpy, _, hc, i, hi, ?_⟩
      rw [hdx, hdy]
      rfl

def pixelAt (pixels : Bytes) (w x y : Nat) : RGBA :=
  let byte (i : Nat) : UInt8 := pixels.getD (pixelOffset w x y + i) 0
  ⟨byte 0, byte 1, byte 2, byte 3⟩

theorem byte_clear (i : Nat) : RGBA.clear.byte i = 0 := by
  unfold RGBA.byte
  split <;> rfl

-- The buffer that is encoded holds the image.
theorem build_pixelAt {x y : Nat} (hx : x < atlasW t) (hy : y < atlasH t) :
    pixelAt (build t).pixels (atlasW t) x y = (atlasImage t).pixel x y := by
  have hbyte : ∀ i, i < 4 → (build t).pixels.getD (pixelOffset (atlasW t) x y + i) 0 =
      ((atlasImage t).pixel x y).byte i := by
    intro i hi
    have hlt := pixelOffset_lt hx hy hi
    have hroom : pixelOffset (atlasW t) x y + i <
        (List.replicate (atlasW t * atlasH t * 4) (0 : UInt8)).length := by
      rwa [List.length_replicate]
    rw [build_pixels, List.getD_eq_getElem?_getD]
    by_cases hwritten : ∃ u ∈ allWrites t, u.1 = pixelOffset (atlasW t) x y + i
    · obtain ⟨u, hu, hplace⟩ := hwritten
      obtain ⟨e, he, hue⟩ := List.mem_flatMap.mp hu
      obtain ⟨x', y', i', -, hx', -, hi', rfl⟩ := turnWrites_spec he hue
      obtain ⟨rfl, rfl, rfl⟩ := pixelOffset_inj hx' hx hi' hi hplace
      rw [store_of_written (agree_allWrites t) hu hroom, Option.getD_some]
    · rw [store_of_not_written fun u hu hplace => hwritten ⟨u, hu, hplace⟩]
      rcases copied_or_clear hx hy with hclear | hcopied
      · rw [hclear, byte_clear, List.getElem?_replicate_of_lt hlt, Option.getD_some]
      · exact absurd ⟨_, hcopied i hi, rfl⟩ hwritten
  unfold pixelAt
  simp only
  rw [hbyte 0 (by decide), hbyte 1 (by decide), hbyte 2 (by decide), hbyte 3 (by decide)]
  rfl

end Pixels

section Text

variable {t : Textures}

theorem plain_of_digit {b : UInt8} (h : Decimal.isDigit b = true) : isPlain b = true := by
  simp only [Decimal.isDigit, Bool.and_eq_true, decide_eq_true_eq, UInt8.le_iff_toNat_le] at h
  have hlo : 48 ≤ b.toNat := h.1
  have hhi : b.toNat ≤ 57 := h.2
  simp only [isPlain, Bool.and_eq_true, decide_eq_true_eq, UInt8.le_iff_toNat_le,
    UInt8.lt_iff_toNat_lt, bne_iff_ne, ne_eq]
  refine ⟨⟨⟨?_, ?_⟩, ?_⟩, ?_⟩
  · show 32 ≤ b.toNat
    omega
  · show b.toNat < 127
    omega
  · rintro rfl
    exact absurd hlo (by decide)
  · rintro rfl
    exact absurd hhi (by decide)

-- String(texpos) on the page.
def texposKey (tp : Nat) : JsonKey :=
  ⟨Decimal.digits tp, by
    rw [List.all_eq_true]
    exact fun b hb => plain_of_digit (List.all_eq_true.mp (Decimal.digits_all tp) b hb)⟩

theorem texposKey_injective : Function.Injective texposKey := fun _ _ h =>
  Decimal.digits_injective (congrArg Subtype.val h)

def mapEntry (p : Nat × Nat × Nat) : JsonKey × Json :=
  (texposKey p.1, .arr [.num p.2.1, .num p.2.2])

def atlasJson (info : AtlasInfo) : Json :=
  .obj
    [(⟨ascii "tw", by decide⟩, .num info.tw),
      (⟨ascii "th", by decide⟩, .num info.th),
      (⟨ascii "map", by decide⟩, .obj (info.map.map mapEntry))]

theorem entryText_eq (firstEntry : Bool) (tp x y : Nat) :
    entryText firstEntry tp x y =
      (if firstEntry then [] else [44]) ++ Json.printKey (mapEntry (tp, x, y)).1 ++
        Json.print (mapEntry (tp, x, y)).2 := by
  cases firstEntry <;>
    simp [entryText, mapEntry, texposKey, Json.printKey, Json.print, Json.printElems, ascii]

-- The entries of the turns of a part of the loop.
def turnEntries (t : Textures) (es : List (Nat × Nat)) : List (Nat × Nat × Nat) :=
  es.filterMap fun e => (copying t e.1).map fun _ => (e.1, destX t e.2, destY t e.2)

theorem foldl_copyTurn_json (es : List (Nat × Nat)) (b : Build) :
    (es.foldl (copyTurn t) b).json = b.json ++
      (if b.firstEntry = true ∨ turnEntries t es = [] then [] else [44]) ++
        Json.printMembers ((turnEntries t es).map mapEntry) := by
  induction es generalizing b with
  | nil => simp [turnEntries, Json.printMembers]
  | cons e es ih =>
      rw [List.foldl_cons, ih]
      cases hcopy : copying t e.1 with
      | none =>
          have hturn : copyTurn t b e = b := by simp [copyTurn, hcopy]
          have hentries : turnEntries t (e :: es) = turnEntries t es := by
            simp [turnEntries, hcopy]
          rw [hturn, hentries]
      | some k =>
          have hentries : turnEntries t (e :: es) =
              (e.1, destX t e.2, destY t e.2) :: turnEntries t es := by
            simp [turnEntries, hcopy]
          have hjson : (copyTurn t b e).json =
              b.json ++ entryText b.firstEntry e.1 (destX t e.2) (destY t e.2) := by
            simp [copyTurn, hcopy]
          have hfirst : (copyTurn t b e).firstEntry = false := by simp [copyTurn, hcopy]
          rw [hentries, hjson, hfirst, entryText_eq, List.map_cons, mapEntry,
            Json.printMembers_cons]
          cases hrest : turnEntries t es with
          | nil => cases b.firstEntry <;> simp [Json.printMembers]
          | cons p ps => cases b.firstEntry <;> simp [mapEntry]

theorem atlasInfo_map_turns (t : Textures) :
    (atlasInfo t).map = turnEntries t (allTexpos t).zipIdx := by
  have hrange : List.range (cells t).length = (allTexpos t).zipIdx.map Prod.snd := by
    rw [List.zipIdx_map_snd, ← length_allTexpos, List.range_eq_range']
  show (List.range (cells t).length).filterMap _ = _
  rw [hrange, List.filterMap_map]
  refine List.filterMap_congr fun e he => ?_
  show (cellAt t e.2).map _ = _
  rw [cellAt_of_zipIdx he, Option.map_map]
  rfl

-- The text is the map printed as JSON.
theorem build_json (t : Textures) : (build t).json = Json.print (atlasJson (atlasInfo t)) := by
  have hfold := foldl_copyTurn_json (t := t) (allTexpos t).zipIdx (startBuild t)
  show ((allTexpos t).zipIdx.foldl (copyTurn t) (startBuild t)).json ++ ascii "\x7d\x7d" = _
  rw [hfold, ← atlasInfo_map_turns]
  simp [startBuild, headText, atlasJson, Json.print, Json.printMembers, Json.printKey, ascii,
    atlasInfo]

theorem nodup_keys (t : Textures) : (((atlasInfo t).map.map mapEntry).map Prod.fst).Nodup := by
  have hfst : ((atlasInfo t).map.map Prod.fst).Nodup := by
    have hsub : ((atlasInfo t).map.map Prod.fst).Sublist ((allTexpos t).zipIdx.map Prod.fst) := by
      rw [atlasInfo_map_turns]
      generalize (allTexpos t).zipIdx = es
      induction es with
      | nil => exact List.Sublist.refl _
      | cons e es ih =>
          unfold turnEntries at ih ⊢
          cases hcopy : copying t e.1 with
          | none =>
              rw [List.filterMap_cons_none (by rw [hcopy]; rfl)]
              exact ih.cons _
          | some k =>
              rw [List.filterMap_cons_some (by rw [hcopy]; rfl)]
              exact ih.cons_cons _
    rw [List.zipIdx_map_fst] at hsub
    exact hsub.nodup (nodup_allTexpos t)
  have hkeys : ((atlasInfo t).map.map mapEntry).map Prod.fst =
      ((atlasInfo t).map.map Prod.fst).map texposKey := by
    rw [List.map_map, List.map_map]
    rfl
  rw [hkeys]
  exact hfst.map texposKey_injective

end Text

-- The dimensions of the atlas, and the count they come from, fit in an int.
structure FitsInt (t : Textures) : Prop where
  count : (allTexpos t).length + atlasCols (allTexpos t).length ≤ 2 ^ 31
  width : atlasW t < 2 ^ 31
  height : atlasH t < 2 ^ 31

-- What a build makes of the textures; e in the list is a texpos and its index.
structure LaidOut (t : Textures) (b : Build) (info : AtlasInfo) (image : AtlasImage) : Prop where
  writes : ∀ e ∈ (allTexpos t).zipIdx, ∀ u ∈ turnWrites t e,
    u.1 < b.pixels.length ∧ u.1 < 2 ^ 64 ∧
      ∃ x y i, InCell t e.2 x y ∧ i < 4 ∧ u.1 = pixelOffset image.w x y + i
  inside : ∀ e ∈ (allTexpos t).zipIdx, ∀ x y, InCell t e.2 x y → x < image.w ∧ y < image.h
  disjoint : ∀ e ∈ (allTexpos t).zipIdx, ∀ e' ∈ (allTexpos t).zipIdx, e.1 ≠ e'.1 →
    ∀ x y, ¬(InCell t e.2 x y ∧ InCell t e'.2 x y)
  own : ∀ e ∈ (allTexpos t).zipIdx, ∀ px py, px < t.tw → py < t.th →
    Texel t e.1 px py (pixelAt b.pixels image.w (destX t e.2 + px) (destY t e.2 + py))
  clear : ∀ x y, x < image.w → y < image.h → (∀ e ∈ (allTexpos t).zipIdx, ¬InCell t e.2 x y) →
    pixelAt b.pixels image.w x y = .clear
  encoded : ∀ x y, x < image.w → y < image.h →
    pixelAt b.pixels image.w x y = image.pixel x y
  json : Json.parse b.json = some (atlasJson info)
  keys : ((info.map.map mapEntry).map Prod.fst).Nodup
  listed : ∀ tp x y, (tp, x, y) ∈ info.map ↔ ∃ idx, (tp, idx) ∈ (allTexpos t).zipIdx ∧
    (copying t tp).isSome ∧ x = destX t idx ∧ y = destY t idx
  sources : ∀ p ∈ info.map, p.2.1 + info.tw ≤ image.w ∧ p.2.2 + info.th ≤ image.h
  -- snprintf has 64 bytes for the head and for an entry
  head : (headText info.tw info.th).length < 64
  entries : ∀ p ∈ info.map, p.1 < 2 ^ 63 → ∀ firstEntry,
    (entryText firstEntry p.1 p.2.1 p.2.2).length < 64

section Layout

variable {t : Textures} {tp idx : Nat}

theorem inCell_iff {x y : Nat} : InCell t idx x y ↔
    ∃ px py, px < t.tw ∧ py < t.th ∧ x = destX t idx + px ∧ y = destY t idx + py := by
  unfold InCell
  constructor
  · rintro ⟨⟨hxlo, hxhi⟩, hylo, hyhi⟩
    exact ⟨x - destX t idx, y - destY t idx, by omega, by omega, by omega, by omega⟩
  · rintro ⟨px, py, hpx, hpy, rfl, rfl⟩
    omega

-- A pixel is in one cell.
theorem inCell_unique {idx' x y : Nat} (h : InCell t idx x y) (h' : InCell t idx' x y) :
    idx = idx' := by
  have hplace : ∀ {i : Nat}, InCell t i x y → x / t.tw = i % 64 ∧ y / t.th = i / 64 := by
    intro i hi
    obtain ⟨px, py, hpx, hpy, rfl, rfl⟩ := inCell_iff.mp hi
    constructor
    · rw [destX, Nat.mul_comm, Nat.mul_add_div t.tw_pos, Nat.div_eq_of_lt hpx, Nat.add_zero]
    · rw [destY, Nat.mul_comm, Nat.mul_add_div t.th_pos, Nat.div_eq_of_lt hpy, Nat.add_zero]
  obtain ⟨hcol, hrow⟩ := hplace h
  obtain ⟨hcol', hrow'⟩ := hplace h'
  omega

theorem mem_atlasInfo_iff {x y : Nat} : (tp, x, y) ∈ (atlasInfo t).map ↔
    ∃ idx, (tp, idx) ∈ (allTexpos t).zipIdx ∧ (copying t tp).isSome ∧
      x = destX t idx ∧ y = destY t idx := by
  rw [atlasInfo_map_turns, turnEntries, List.mem_filterMap]
  constructor
  · rintro ⟨⟨tp', idx⟩, he, h⟩
    obtain ⟨k, hk, heq⟩ := Option.map_eq_some_iff.mp h
    obtain ⟨rfl, hxy⟩ := Prod.mk.inj heq
    obtain ⟨rfl, rfl⟩ := Prod.mk.inj hxy
    exact ⟨idx, he, by rw [show copying t tp' = some k from hk]; rfl, rfl, rfl⟩
  · rintro ⟨idx, he, hcopy, rfl, rfl⟩
    obtain ⟨k, hk⟩ := Option.isSome_iff_exists.mp hcopy
    exact ⟨(tp, idx), he, by rw [hk]; rfl⟩

theorem build_own {e : Nat × Nat} (he : e ∈ (allTexpos t).zipIdx) {px py : Nat} (hpx : px < t.tw)
    (hpy : py < t.th) : pixelAt (build t).pixels (atlasW t) (destX t e.2 + px) (destY t e.2 + py) =
      texture t e.1 px py := by
  obtain ⟨hx, hy⟩ := inCell_image he hpx hpy
  have htp : e.1 ∈ allTexpos t := List.mem_of_getElem? (mem_zipIdx_iff.mp he)
  rw [build_pixelAt hx hy, destX, destY, atlasImage_at (zipIdx_lt he) hpx hpy,
    cellAt_of_zipIdx he, texture_eq htp]
  cases copying t e.1 <;> rfl

theorem build_clear {x y : Nat} (hx : x < atlasW t) (hy : y < atlasH t)
    (hout : ∀ e ∈ (allTexpos t).zipIdx, ¬InCell t e.2 x y) :
    pixelAt (build t).pixels (atlasW t) x y = .clear := by
  rw [build_pixelAt hx hy]
  rcases copied_or_clear hx hy with hclear | hcopied
  · exact hclear
  · obtain ⟨e, he, hu⟩ := List.mem_flatMap.mp (hcopied 0 (by decide))
    obtain ⟨x', y', i, hcell, hx', -, hi, heq⟩ := turnWrites_spec he hu
    obtain ⟨rfl, rfl, -⟩ := pixelOffset_inj hx hx' (by decide) hi (congrArg Prod.fst heq)
    exact absurd hcell (hout e he)

-- The area that drawImage is given.
theorem entry_in_image {p : Nat × Nat × Nat} (hp : p ∈ (atlasInfo t).map) :
    p.2.1 + t.tw ≤ atlasW t ∧ p.2.2 + t.th ≤ atlasH t := by
  obtain ⟨tp, x, y⟩ := p
  obtain ⟨idx, he, -, rfl, rfl⟩ := mem_atlasInfo_iff.mp hp
  have htw := t.tw_pos
  have hth := t.th_pos
  obtain ⟨hx, hy⟩ := inCell_image he (show t.tw - 1 < t.tw by omega)
    (show t.th - 1 < t.th by omega)
  exact ⟨show destX t idx + t.tw ≤ _ by omega, show destY t idx + t.th ≤ _ by omega⟩

theorem tile_le_image (hcells : cells t ≠ []) : t.tw ≤ atlasW t ∧ t.th ≤ atlasH t := by
  have hpos : 0 < (cells t).length := List.length_pos_iff.mpr hcells
  have hcols := atlasCols_gt hpos
  have hrows := atlasRows_gt hpos
  rw [atlasW, atlasH, length_allTexpos]
  exact ⟨Nat.le_mul_of_pos_left _ (by omega), Nat.le_mul_of_pos_left _ (by omega)⟩

theorem offset_fits (hfits : FitsInt t) {o : Nat} (h : o < atlasW t * atlasH t * 4) :
    o < 2 ^ 64 := by
  have hw : atlasW t ≤ 2 ^ 31 := hfits.width.le
  have hh : atlasH t ≤ 2 ^ 31 := hfits.height.le
  calc o < atlasW t * atlasH t * 4 := h
    _ ≤ 2 ^ 31 * 2 ^ 31 * 4 := Nat.mul_le_mul_right _ (Nat.mul_le_mul hw hh)
    _ = 2 ^ 64 := by decide

theorem length_digits_int {n : Nat} (h : n < 2 ^ 31) : (Decimal.digits n).length ≤ 10 :=
  (Decimal.length_digits_le (by decide)).mpr (lt_trans h (by decide))

theorem headText_fits {tw th : Nat} (htw : tw < 2 ^ 31) (hth : th < 2 ^ 31) :
    (headText tw th).length < 64 := by
  have htwlen := length_digits_int htw
  have hthlen := length_digits_int hth
  have htwkey : (ascii "\x7b\"tw\":").length = 6 := rfl
  have hthkey : (ascii ",\"th\":").length = 6 := rfl
  have hmapkey : (ascii ",\"map\":\x7b").length = 8 := rfl
  simp only [headText, List.length_append]
  omega

theorem entryText_fits {firstEntry : Bool} {x y : Nat} (htp : tp < 2 ^ 63) (hx : x < 2 ^ 31)
    (hy : y < 2 ^ 31) : (entryText firstEntry tp x y).length < 64 := by
  have htplen : (Decimal.digits tp).length ≤ 19 := (Decimal.length_digits_le (by decide)).mpr
    (lt_trans htp (by decide))
  have hxlen := length_digits_int hx
  have hylen := length_digits_int hy
  have hcomma : (if firstEntry then [] else ascii ",").length ≤ 1 := by
    cases firstEntry <;> decide
  simp only [entryText, List.length_append]
  have hquote : (ascii "\"").length = 1 := rfl
  have hcolon : (ascii "\":[").length = 3 := rfl
  have hsep : (ascii ",").length = 1 := rfl
  have hend : (ascii "]").length = 1 := rfl
  omega

end Layout

-- The buffer, the text and the map of an atlas that is published.
theorem atlas_laid_out {t : Textures} {encodes : Bool} {a : Atlas} (hfits : FitsInt t)
    (hbuilt : (wfBuildAtlas t encodes a).2 = .built) :
    ∃ info image, (wfBuildAtlas t encodes a).1.json = some info ∧
      (wfBuildAtlas t encodes a).1.png = some image ∧ LaidOut t (build t) info image := by
  obtain ⟨hcells, hjson, hpng⟩ := wfBuildAtlas_built hbuilt
  obtain ⟨hw, hh⟩ := atlas_size t
  refine ⟨atlasInfo t, atlasImage t, hjson, hpng, ?_⟩
  constructor
  case writes =>
    intro e he u hu
    obtain ⟨x, y, i, hcell, hx, hy, hi, rfl⟩ := turnWrites_spec he hu
    have hlt := pixelOffset_lt hx hy hi
    rw [length_pixels, hw]
    exact ⟨hlt, offset_fits hfits hlt, x, y, i, hcell, hi, rfl⟩
  case inside =>
    intro e he x y hcell
    obtain ⟨px, py, hpx, hpy, rfl, rfl⟩ := inCell_iff.mp hcell
    rw [hw, hh]
    exact inCell_image he hpx hpy
  case disjoint =>
    rintro ⟨tp, idx⟩ he ⟨tp', idx'⟩ he' hne x y ⟨hcell, hcell'⟩
    obtain rfl : idx = idx' := inCell_unique hcell hcell'
    exact hne (Option.some.inj ((mem_zipIdx_iff.mp he).symm.trans (mem_zipIdx_iff.mp he')))
  case own =>
    intro e he px py hpx hpy
    rw [hw, build_own he hpx hpy]
    exact texture_texel (List.mem_of_getElem? (mem_zipIdx_iff.mp he)) hpx hpy
  case clear =>
    intro x y hx hy hout
    rw [hw] at hx ⊢
    rw [hh] at hy
    exact build_clear hx hy hout
  case encoded =>
    rw [hw, hh]
    exact fun x y hx hy => build_pixelAt hx hy
  case json =>
    rw [build_json]
    exact Json.parse_print _
  case keys => exact nodup_keys t
  case listed => exact fun tp x y => mem_atlasInfo_iff
  case sources =>
    rw [hw, hh]
    exact fun p hp => entry_in_image hp
  case head =>
    obtain ⟨htw, hth⟩ := tile_le_image hcells
    exact headText_fits (lt_of_le_of_lt htw hfits.width) (lt_of_le_of_lt hth hfits.height)
  case entries =>
    intro p hp htp firstEntry
    obtain ⟨hx, hy⟩ := entry_in_image hp
    have hwidth := hfits.width
    have hheight := hfits.height
    exact entryText_fits htp (by omega) (by omega)

namespace Sample

theorem fits_spriteAndNull : FitsInt spriteAndNull := by
  constructor
  all_goals decide

end Sample

theorem atlas_laid_out_sample :
    ∃ info image, (wfBuildAtlas Sample.spriteAndNull true Sample.graphical).1.json = some info ∧
      (wfBuildAtlas Sample.spriteAndNull true Sample.graphical).1.png = some image ∧
      LaidOut Sample.spriteAndNull (build Sample.spriteAndNull) info image :=
  atlas_laid_out Sample.fits_spriteAndNull Sample.built_spriteAndNull

example : (build Sample.spriteAndNull).json =
    ascii "\x7b\"tw\":1,\"th\":1,\"map\":\x7b\"0\":[0,0],\"1\":[1,0]\x7d\x7d" := by decide

end WebFort
