import Mathlib.Data.List.Basic
import Mathlib.Data.Nat.Basic

/-!
# Tiles

A module that needs too much memory is run on tiles of the image.  Where input and output have the
same region the tiles overlap, and what a tile gives near its edges is overwritten by the next one;
otherwise the output is divided into good regions, one a tile.
-/

namespace DTLite

open List

def alignUp (n align : Nat) : Nat := if n % align ≠ 0 then (n / align + 1) * align else n

-- `_lcm`: one alignment for both dimensions
def tileAlign (xalign yalign : Nat) : Nat := Nat.lcm xalign yalign

/-! ## Tiles that overlap -/

/-- One dimension of the image: its size, that of a tile and the overlap, both aligned. -/
structure TileAxis where
  size : Nat
  tile : Nat
  overlap : Nat
deriving DecidableEq, Repr

open TileAxis

-- A tile as large as the image needs no alignment.
def TileAxis.aligned (size width overlap align : Nat) : TileAxis where
  size := size
  tile := if width < size then width / align * align else width
  overlap := alignUp overlap align

namespace TileAxis

variable (axis : TileAxis) (t x : Nat)

-- `tile_wd`, the effective size
def step : Nat := if 2 * axis.overlap < axis.tile then axis.tile - 2 * axis.overlap else 1

-- `tiles_x`; the quotient of sizes below `2 ^ 24` is rounded up as it is
def count : Nat :=
  if axis.tile < axis.size then (axis.size + axis.step - 1) / axis.step else 1

-- `wd`
def extent : Nat :=
  if axis.size < t * axis.step + axis.tile then axis.size - t * axis.step else axis.tile

-- "no need to process end-tiles that are smaller than the total overlap area"
def skips : Prop := axis.extent t ≤ 2 * axis.overlap ∧ 0 < t

-- The part of a tile that is copied back ends where the tile ends.
def writes : Prop :=
  ¬ axis.skips t ∧ t * axis.step + (if 0 < t then axis.overlap else 0) ≤ x ∧
    x < t * axis.step + axis.extent t

instance decidableWrites : Decidable (axis.writes t x) :=
  inferInstanceAs (Decidable (¬ (axis.extent t ≤ 2 * axis.overlap ∧ 0 < t) ∧ _ ∧ _))

/-- Away from each edge of the tile that is not an edge of the image. -/
def Inside : Prop :=
  (t * axis.step = 0 ∨ t * axis.step + axis.overlap ≤ x) ∧
    (t * axis.step + axis.extent t = axis.size ∨
      x + axis.overlap < t * axis.step + axis.extent t)

/-- There is one tile only, or there is more to a tile than the overlap. -/
def Fits : Prop := axis.tile = axis.size ∨ 2 * axis.overlap < axis.tile

end TileAxis

/-- The loops of `_default_process_tiling_ptp`: which tile each pixel of the output comes from;
`none` where the function falls back. -/
def defaultProcessTilingPtp (maximumNumberTiles : Nat) (xs ys : TileAxis) :
    Option (Nat → Nat → Option (Nat × Nat)) :=
  if maximumNumberTiles < xs.count * ys.count then none
  else some ((List.range xs.count).foldl (fun out tx =>
    (List.range ys.count).foldl (fun out ty x y =>
      if xs.writes tx x ∧ ys.writes ty y then some (tx, ty) else out x y) out) fun _ _ => none)

namespace TileAxis

variable {axis : TileAxis} {t x : Nat}

-- the last tile that writes the pixel, of the first `n`
def lastWriter (axis : TileAxis) (x : Nat) : Nat → Option Nat
  | 0 => none
  | n + 1 => if axis.writes n x then some n else lastWriter axis x n

theorem lastWriter_eq_some {n : Nat} (h : axis.lastWriter x n = some t) :
    axis.writes t x ∧ t < n ∧ ∀ u < n, axis.writes u x → u ≤ t := by
  induction n with
  | zero => cases h
  | succ n ih =>
    rw [lastWriter] at h
    by_cases hn : axis.writes n x
    · rw [if_pos hn] at h
      cases h
      exact ⟨hn, by omega, fun u hu _ => by omega⟩
    · rw [if_neg hn] at h
      obtain ⟨ht, hlt, hlast⟩ := ih h
      refine ⟨ht, by omega, fun u hu hwrites => ?_⟩
      have hne : u ≠ n := by
        rintro rfl
        exact hn hwrites
      exact hlast u (by omega) hwrites

theorem lastWriter_isSome {n : Nat} (h : axis.writes t x) (ht : t < n) :
    (axis.lastWriter x n).isSome := by
  induction n with
  | zero => cases ht
  | succ n ih =>
    rw [lastWriter]
    by_cases hn : axis.writes n x
    · rw [if_pos hn]
      rfl
    · rw [if_neg hn]
      apply ih
      have hne : t ≠ n := by
        rintro rfl
        exact hn h
      omega

theorem tile_aligned_le {size width : Nat} (h : width ≤ size) (overlap align : Nat) :
    (aligned size width overlap align).tile ≤ size := by
  have hle := Nat.div_mul_le_self width align
  rw [aligned]
  dsimp only
  split <;> omega

theorem step_pos : 0 < axis.step := by
  rw [step]
  split <;> omega

theorem lt_count (htile : axis.tile < axis.size) (ht : t * axis.step < axis.size) :
    t < axis.count := by
  have hpos : 0 < axis.step := step_pos
  rw [count, if_pos htile, Nat.lt_iff_add_one_le, Nat.le_div_iff_mul_le hpos, Nat.succ_mul]
  omega

theorem extent_le : axis.extent t ≤ axis.tile := by
  rw [extent]
  split <;> omega

theorem succ_mul_step (h : 2 * axis.overlap < axis.tile) :
    (t + 1) * axis.step + 2 * axis.overlap = t * axis.step + axis.tile := by
  rw [Nat.succ_mul, step, if_pos h]
  omega

theorem exists_writes (hfits : axis.Fits) (hle : axis.tile ≤ axis.size) (hx : x < axis.size) :
    ∃ t < axis.count, axis.writes t x := by
  by_cases htile : axis.tile < axis.size
  · have h2 : 2 * axis.overlap < axis.tile := hfits.resolve_left (by omega)
    -- the last tile whose part starts before the pixel, with room for the overlap behind it
    let P := fun t => t = 0 ∨
      t * axis.step + axis.overlap ≤ x ∧ t * axis.step + 2 * axis.overlap < axis.size
    obtain ⟨T, hT, hnext⟩ : ∃ T, P T ∧ ¬ P (T + 1) := by
      by_contra hnone
      have hall : ∀ t, P t := by
        intro t
        induction t with
        | zero => exact .inl rfl
        | succ t ih => exact by_contra fun hsucc => hnone ⟨t, ih, hsucc⟩
      have hpos : 0 < axis.step := step_pos
      have hmul := Nat.le_mul_of_pos_right axis.size hpos
      rcases hall axis.size with h | h <;> omega
    have hstart := succ_mul_step (t := T) h2
    have hlt : T * axis.step < axis.size := by
      rcases hT with rfl | hT <;> omega
    refine ⟨T, lt_count htile hlt, ?_⟩
    rw [writes, skips, extent]
    rcases hT with rfl | hT
    · split_ifs <;> omega
    · split_ifs <;> omega
  · refine ⟨0, by rw [count, if_neg htile]; decide, ?_⟩
    rw [writes, skips, extent]
    split_ifs <;> omega

theorem inside_of_last (hfits : axis.Fits) (hle : axis.tile ≤ axis.size)
    (h : axis.lastWriter x axis.count = some t) : axis.Inside t x := by
  obtain ⟨⟨hnot, hstart, hend⟩, ht, hlast⟩ := lastWriter_eq_some h
  refine ⟨?_, ?_⟩
  · rcases Nat.eq_zero_or_pos t with rfl | hpos
    · exact .inl (Nat.zero_mul _)
    · rw [if_pos hpos] at hstart
      exact .inr hstart
  · by_cases hedge : t * axis.step + axis.extent t = axis.size
    · exact .inl hedge
    · right
      rw [extent] at hend hedge ⊢
      split_ifs at hend hedge ⊢ with hclamped
      · omega
      · have h2 : 2 * axis.overlap < axis.tile := hfits.resolve_left (by omega)
        have hnext := succ_mul_step (t := t) h2
        by_contra hnear
        have hwrites : axis.writes (t + 1) x := by
          rw [writes, skips, extent]
          split_ifs <;> omega
        have hle := hlast (t + 1) (lt_count (by omega) (by omega)) hwrites
        omega

theorem exists_inside (hfits : axis.Fits) (hle : axis.tile ≤ axis.size) (hx : x < axis.size) :
    ∃ t, axis.lastWriter x axis.count = some t ∧ axis.Inside t x := by
  obtain ⟨u, hu, hwrites⟩ := exists_writes hfits hle hx
  obtain ⟨t, ht⟩ := Option.isSome_iff_exists.mp (lastWriter_isSome hwrites hu)
  exact ⟨t, ht, inside_of_last hfits hle ht⟩

theorem not_writes_of_not_fits (hfits : ¬ axis.Fits) (hle : axis.tile ≤ axis.size) :
    ¬ axis.writes t (axis.size - 1) := by
  rw [Fits] at hfits
  rintro ⟨hnot, -, hend⟩
  have hextent : axis.extent t ≤ axis.tile := extent_le
  rcases Nat.eq_zero_or_pos t with rfl | hpos
  · omega
  · exact hnot ⟨by omega, hpos⟩

end TileAxis

section Loops

variable {xs ys : TileAxis} {x y : Nat}

theorem foldl_rows (tx n : Nat) (out : Nat → Nat → Option (Nat × Nat)) :
    (range n).foldl (fun out ty x y =>
      if xs.writes tx x ∧ ys.writes ty y then some (tx, ty) else out x y) out x y =
    if xs.writes tx x then ((ys.lastWriter y n).map fun ty => (tx, ty)).or (out x y)
    else out x y := by
  induction n with
  | zero => simp [lastWriter]
  | succ n ih =>
    rw [range_succ, foldl_append, foldl_cons, foldl_nil, ih, lastWriter]
    by_cases hx : xs.writes tx x <;> by_cases hy : ys.writes n y <;> simp [hx, hy]

theorem foldl_tiles (n m : Nat) :
    (range n).foldl (fun out tx => (range m).foldl (fun out ty x y =>
      if xs.writes tx x ∧ ys.writes ty y then some (tx, ty) else out x y) out)
      (fun _ _ => none) x y =
    (xs.lastWriter x n).bind fun tx => (ys.lastWriter y m).map fun ty => (tx, ty) := by
  induction n with
  | zero => rfl
  | succ n ih =>
    rw [range_succ, foldl_append, foldl_cons, foldl_nil, foldl_rows, ih, lastWriter]
    by_cases hx : xs.writes n x
    · cases ys.lastWriter y m <;> simp [hx]
    · simp [hx]

theorem defaultProcessTilingPtp_eq_some {maximumNumberTiles : Nat}
    {out : Nat → Nat → Option (Nat × Nat)}
    (hrun : defaultProcessTilingPtp maximumNumberTiles xs ys = some out) (x y : Nat) :
    out x y = (xs.lastWriter x xs.count).bind fun tx =>
      (ys.lastWriter y ys.count).map fun ty => (tx, ty) := by
  rw [defaultProcessTilingPtp] at hrun
  split at hrun
  · cases hrun
  · cases hrun
    exact foldl_tiles xs.count ys.count

end Loops

/-- Every pixel is written, and comes from a tile that it is well inside of, exactly if there is
one tile only or more to a tile than the overlap, in both dimensions. -/
theorem defaultProcessTilingPtp_inside_iff {roiWidth roiHeight width height : Nat}
    (hwidth : width ≤ roiWidth) (hheight : height ≤ roiHeight)
    (hpos : 0 < roiWidth ∧ 0 < roiHeight) (overlap xalign yalign : Nat) {xs ys : TileAxis}
    (hxs : xs = .aligned roiWidth width overlap (tileAlign xalign yalign))
    (hys : ys = .aligned roiHeight height overlap (tileAlign xalign yalign))
    {maximumNumberTiles : Nat} {out : Nat → Nat → Option (Nat × Nat)}
    (hrun : defaultProcessTilingPtp maximumNumberTiles xs ys = some out) :
    (∀ x < roiWidth, ∀ y < roiHeight, ∃ tx ty,
      out x y = some (tx, ty) ∧ xs.Inside tx x ∧ ys.Inside ty y) ↔ xs.Fits ∧ ys.Fits := by
  have hx : xs.tile ≤ xs.size := hxs ▸ tile_aligned_le hwidth overlap _
  have hy : ys.tile ≤ ys.size := hys ▸ tile_aligned_le hheight overlap _
  have hsizex : xs.size = roiWidth := congrArg size hxs
  have hsizey : ys.size = roiHeight := congrArg size hys
  have hout := defaultProcessTilingPtp_eq_some hrun
  constructor
  · intro hall
    obtain ⟨tx, ty, hlast, -⟩ := hall (xs.size - 1) (by omega) (ys.size - 1) (by omega)
    rw [hout] at hlast
    obtain ⟨tx, htx, hlast⟩ := Option.bind_eq_some_iff.mp hlast
    obtain ⟨ty, hty, -⟩ := Option.map_eq_some_iff.mp hlast
    refine ⟨by_contra fun hfits => ?_, by_contra fun hfits => ?_⟩
    · exact not_writes_of_not_fits hfits hx (lastWriter_eq_some htx).1
    · exact not_writes_of_not_fits hfits hy (lastWriter_eq_some hty).1
  · rintro ⟨hfitsx, hfitsy⟩ x hxlt y hylt
    obtain ⟨tx, htx, hinsidex⟩ := exists_inside hfitsx hx (hsizex ▸ hxlt)
    obtain ⟨ty, hty, hinsidey⟩ := exists_inside hfitsy hy (hsizey ▸ hylt)
    refine ⟨tx, ty, ?_, hinsidex, hinsidey⟩
    rw [hout, htx, Option.bind_some, hty, Option.map_some]

-- A hundred columns and sixty lines, in tiles of half the size with an overlap of four.
theorem defaultProcessTilingPtp_inside_columns : ∃ out tx ty,
    defaultProcessTilingPtp 10000 (.aligned 100 50 4 (tileAlign 2 2))
      (.aligned 60 30 4 (tileAlign 2 2)) = some out ∧ out 99 59 = some (tx, ty) := by
  obtain ⟨out, hrun⟩ : ∃ out, defaultProcessTilingPtp 10000 (.aligned 100 50 4 (tileAlign 2 2))
      (.aligned 60 30 4 (tileAlign 2 2)) = some out := ⟨_, rfl⟩
  obtain ⟨tx, ty, hout, -⟩ := (defaultProcessTilingPtp_inside_iff (by decide) (by decide)
    (by decide) 4 2 2 rfl rfl hrun).mpr ⟨.inr (by decide), .inr (by decide)⟩
      99 (by decide) 59 (by decide)
  exact ⟨out, tx, ty, hrun, hout⟩

/-- With an overlap of half a tile all tiles but the first one are skipped. -/
theorem defaultProcessTilingPtp_unwritten : ∃ out,
    defaultProcessTilingPtp 10000 (.aligned 10 4 2 (tileAlign 1 1))
      (.aligned 10 4 2 (tileAlign 1 1)) = some out ∧ out 9 9 = none :=
  ⟨_, rfl, by decide⟩

/-! ## Good regions -/

-- `tile_wd` of `_default_process_tiling_roi`
def goodTile (size tiles align : Nat) : Nat :=
  alignUp (if size % tiles = 0 then size / tiles else size / tiles + 1) align

-- `wd`, the unsigned difference as the `int` that it is stored to
def goodSize (size tile t : Nat) : Int :=
  if size < (t + 1) * tile then (size : Int) - (t * tile : Nat) else tile

-- `oroi_good` relative to `roi_out`
structure GoodRegion where
  x : Nat
  y : Nat
  width : Int
  height : Int
deriving DecidableEq, Repr

/-- The good part of the tile `(tx, ty)` in `_default_process_tiling_roi`. -/
def goodRegion (width height tilesX tilesY align tx ty : Nat) : GoodRegion where
  x := tx * goodTile width tilesX align
  y := ty * goodTile height tilesY align
  width := goodSize width (goodTile width tilesX align) tx
  height := goodSize height (goodTile height tilesY align) ty

def GoodRegion.Contains (r : GoodRegion) (x y : Nat) : Prop :=
  (r.x ≤ x ∧ (x : Int) < r.x + r.width) ∧ r.y ≤ y ∧ (y : Int) < r.y + r.height

def GoodRegion.Within (r : GoodRegion) (width height : Nat) : Prop :=
  (0 ≤ r.width ∧ r.x + r.width ≤ width) ∧ 0 ≤ r.height ∧ r.y + r.height ≤ height

/-- The last tile does not start behind the end. -/
def LastTileFits (size tiles align : Nat) : Prop := (tiles - 1) * goodTile size tiles align ≤ size

section Good

variable {size tiles align tile t x : Nat}

theorem le_alignUp (halign : 0 < align) (n : Nat) : n ≤ alignUp n align := by
  rw [alignUp]
  split
  · rw [Nat.mul_comm]
    exact Nat.le_of_lt (Nat.lt_mul_div_succ n halign)
  · exact Nat.le_refl n

theorem le_tiles_mul (size : Nat) (htiles : 0 < tiles) (halign : 0 < align) :
    size ≤ tiles * goodTile size tiles align := by
  have hceil : size ≤ tiles * (if size % tiles = 0 then size / tiles else size / tiles + 1) := by
    split
    next hzero => exact Nat.le_of_eq (Nat.mul_div_cancel' (Nat.dvd_of_mod_eq_zero hzero)).symm
    next => exact Nat.le_of_lt (Nat.lt_mul_div_succ size htiles)
  exact Nat.le_trans hceil (Nat.mul_le_mul_left tiles (le_alignUp halign _))

theorem goodSize_contains_iff (htile : 0 < tile) (hx : x < size) :
    (t * tile ≤ x ∧ (x : Int) < (t * tile : Nat) + goodSize size tile t) ↔ t = x / tile := by
  have hsucc : (t + 1) * tile = t * tile + tile := Nat.succ_mul t tile
  rw [goodSize]
  constructor
  · rintro ⟨hstart, hend⟩
    refine (Nat.div_eq_of_lt_le hstart ?_).symm
    split at hend <;> omega
  · rintro rfl
    have hstart := Nat.div_mul_le_self x tile
    have hend := Nat.lt_div_mul_add (a := x) htile
    refine ⟨hstart, ?_⟩
    split <;> omega

theorem goodSize_within_iff : (0 ≤ goodSize size tile t ∧
    ((t * tile : Nat) : Int) + goodSize size tile t ≤ size) ↔ t * tile ≤ size := by
  have hsucc : (t + 1) * tile = t * tile + tile := Nat.succ_mul t tile
  rw [goodSize]
  split <;> omega

theorem lastTileFits_iff (htiles : 0 < tiles) : LastTileFits size tiles align ↔
    ∀ t < tiles, t * goodTile size tiles align ≤ size := by
  constructor
  · intro hlast t ht
    exact Nat.le_trans (Nat.mul_le_mul_right _ (Nat.le_sub_one_of_lt ht)) hlast
  · intro hall
    exact hall (tiles - 1) (Nat.sub_lt htiles Nat.one_pos)

theorem goodTile_pos (htiles : 0 < tiles) (halign : 0 < align) (hx : x < size) :
    0 < goodTile size tiles align := by
  have hle := le_tiles_mul size htiles halign
  rcases Nat.eq_zero_or_pos (goodTile size tiles align) with hzero | hpos
  · rw [hzero] at hle
    omega
  · exact hpos

theorem div_goodTile_lt (htiles : 0 < tiles) (halign : 0 < align) (hx : x < size) :
    x / goodTile size tiles align < tiles := by
  have hle := le_tiles_mul size htiles halign
  rw [Nat.div_lt_iff_lt_mul (goodTile_pos htiles halign hx)]
  omega

end Good

/-- The good regions have non-negative sizes, lie in the output and cover each of its pixels once,
exactly if neither the last column nor the last row of tiles starts behind the end. -/
theorem goodRegion_partition_iff (width height : Nat) {tilesX tilesY align : Nat}
    (hx : 0 < tilesX) (hy : 0 < tilesY) (halign : 0 < align) :
    ((∀ tx < tilesX, ∀ ty < tilesY,
        (goodRegion width height tilesX tilesY align tx ty).Within width height) ∧
      ∀ x < width, ∀ y < height, ∃! t : Nat × Nat, (t.1 < tilesX ∧ t.2 < tilesY) ∧
        (goodRegion width height tilesX tilesY align t.1 t.2).Contains x y) ↔
    LastTileFits width tilesX align ∧ LastTileFits height tilesY align := by
  rw [lastTileFits_iff hx, lastTileFits_iff hy]
  constructor
  · rintro ⟨hwithin, -⟩
    exact ⟨fun tx htx => goodSize_within_iff.mp (hwithin tx htx 0 hy).1,
      fun ty hty => goodSize_within_iff.mp (hwithin 0 hx ty hty).2⟩
  · rintro ⟨hfitsx, hfitsy⟩
    refine ⟨fun tx htx ty hty => ⟨goodSize_within_iff.mpr (hfitsx tx htx),
      goodSize_within_iff.mpr (hfitsy ty hty)⟩, fun x hxlt y hylt => ?_⟩
    have hcolumn := fun t =>
      goodSize_contains_iff (t := t) (goodTile_pos hx halign hxlt) hxlt
    have hrow := fun t =>
      goodSize_contains_iff (t := t) (goodTile_pos hy halign hylt) hylt
    refine ⟨(x / goodTile width tilesX align, y / goodTile height tilesY align),
      ⟨⟨div_goodTile_lt hx halign hxlt, div_goodTile_lt hy halign hylt⟩,
        (hcolumn _).mpr rfl, (hrow _).mpr rfl⟩, ?_⟩
    rintro ⟨tx, ty⟩ ⟨-, hinx, hiny⟩
    exact Prod.ext ((hcolumn tx).mp hinx) ((hrow ty).mp hiny)

-- Seven thousand columns in 22 tiles, aligned to the pattern of the sensor.
theorem goodRegion_partition_sensor :
    (goodRegion 7000 5000 22 15 6 21 14).Within 7000 5000 :=
  ((goodRegion_partition_iff 7000 5000 (by decide) (by decide) (by decide)).mpr
    (by unfold LastTileFits; decide)).1 21 (by decide) 14 (by decide)

/-- Fifteen rows of tiles, 28 lines high, for an output of 391 lines: the last one starts at 392 and
has the height -1. -/
theorem goodRegion_negative : (goodRegion 522 391 14 15 2 0 14).height = -1 ∧
    ¬ (goodRegion 522 391 14 15 2 0 14).Within 522 391 := by
  refine ⟨by decide, fun h => absurd h.2.1 (by decide)⟩

end DTLite
