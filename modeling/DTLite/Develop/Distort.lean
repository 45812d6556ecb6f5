import DTLite.Develop.Pixelpipe
import DTLite.Reasoning.ListPos
import Mathlib.Tactic.Linarith
import Mathlib.Tactic.Ring

/-!
# Points through the pipe

The coordinates of points on the image before and after the distorting modules, in exact
arithmetic.
-/

namespace DTLite

open Reasoning List ListPos

abbrev Point := ℚ × ℚ

-- the modules' own `distort_transform` and `distort_backtransform`; both keep `points_count`
structure DistortOps where
  transform : ModuleRef → Piece → List Point → List Point
  backtransform : ModuleRef → Piece → List Point → List Point
  length_transform : ∀ m piece points, (transform m piece points).length = points.length
  length_backtransform : ∀ m piece points, (backtransform m piece points).length = points.length

-- each module undoes its own distortion
def DistortOps.Undoes (ops : DistortOps) : Prop :=
  ∀ m piece points, ops.backtransform m piece (ops.transform m piece points) = points

-- `DT_DEV_TRANSFORM_DIR_ALL` and so on
inductive TransfDirection where
  | all
  | forwIncl
  | forwExcl
  | backIncl
  | backExcl
deriving DecidableEq, Repr

def TransfDirection.test (order bound : ℚ) : TransfDirection → Bool
  | .all => true
  | .forwIncl => bound ≤ order
  | .forwExcl => bound < order
  | .backIncl => order ≤ bound
  | .backExcl => order < bound

-- the focused module may ask not to see some kinds of operation
def filteredOut (dev : Develop) (m : ModuleRef) : Bool :=
  match dev.guiModule with
  | none => false
  | some g => (dev.mods g).operationTagsFilter &&& (dev.mods m).operationTags != 0

def distorts (dev : Develop) (iopOrder : ℚ) (direction : TransfDirection) (m : ModuleRef)
    (piece : Piece) : Bool :=
  piece.enabled && direction.test (dev.mods m).iopOrder iopOrder && !filteredOut dev m

-- whether the points of the whole image are scaled by the size of the preview
def scales (dev : Develop) (direction : TransfDirection) : Bool :=
  dev.previewDownsampling != 1 &&
    (direction == .all || direction == .forwExcl || direction == .forwIncl)

def mapCoords (f : ℚ → ℚ) (points : List Point) : List Point :=
  points.map fun p => (f p.1, f p.2)

section Ops

variable (ops : DistortOps) (dev : Develop) (pipe : Pixelpipe) (iopOrder : ℚ)
  (direction : TransfDirection) (points : List Point)

def dtDevDistortTransformPlus : Bool × List Point :=
  let r := walk2 .next (fun m piece points =>
      if distorts dev iopOrder direction m piece then ops.transform m piece points else points)
    (ListPos.first pipe.iop) (ListPos.first pipe.nodes) points
  if r.1 && scales dev direction then (true, mapCoords (· * dev.previewDownsampling) r.2) else r

-- The loop starts at the head of the lists as well, and advances by `g_list_previous`
def dtDevDistortBacktransformPlus : Bool × List Point :=
  let points :=
    if scales dev direction then mapCoords (· / dev.previewDownsampling) points else points
  walk2 .previous (fun m piece points =>
      if distorts dev iopOrder direction m piece then ops.backtransform m piece points else points)
    (ListPos.first pipe.iop) (ListPos.first pipe.nodes) points

def distortRoundTrip : List Point :=
  (dtDevDistortBacktransformPlus ops dev pipe iopOrder direction
    (dtDevDistortTransformPlus ops dev pipe iopOrder direction points).2).2

def pipePairs : List (ModuleRef × Piece) := pipe.iop.zip pipe.nodes

def distortAll (op : ModuleRef → Piece → List Point → List Point)
    (pairs : List (ModuleRef × Piece)) : List Point :=
  pairs.foldl (fun points p =>
    if distorts dev iopOrder direction p.1 p.2 then op p.1 p.2 points else points) points

theorem mapCoords_div_mul {factor : ℚ} (hne : factor ≠ 0) :
    mapCoords (· / factor) (mapCoords (· * factor) points) = points := by
  unfold mapCoords
  rw [map_map]
  have hid : ((fun p : Point => (p.1 / factor, p.2 / factor)) ∘
      fun p : Point => (p.1 * factor, p.2 * factor)) = id := by
    funext p
    simp only [Function.comp_apply, mul_div_cancel_right₀ _ hne, id]
  rw [hid, map_id]

variable {ops dev pipe iopOrder direction points}

theorem distortRoundTrip_eq (hlen : pipe.iop.length = pipe.nodes.length)
    (hdown : dev.previewDownsampling ≠ 0) :
    distortRoundTrip ops dev pipe iopOrder direction points =
      distortAll dev iopOrder direction
        (distortAll dev iopOrder direction points ops.transform (pipePairs pipe))
        ops.backtransform ((pipePairs pipe).take 1) := by
  have hforw : (remaining .next (first pipe.iop)).length =
      (remaining .next (first pipe.nodes)).length := by
    simpa using hlen
  have hback : (remaining .previous (first pipe.iop)).length =
      (remaining .previous (first pipe.nodes)).length := by
    simp [remaining_previous_first, hlen]
  unfold distortRoundTrip dtDevDistortBacktransformPlus dtDevDistortTransformPlus
  rw [walk2_eq_foldl _ _ _ _ _ hforw, walk2_eq_foldl _ _ _ _ _ hback]
  simp only [remaining_next_first, remaining_previous_first]
  have htake : (pipe.iop.zip pipe.nodes).take 1 = (pipe.iop.take 1).zip (pipe.nodes.take 1) :=
    take_zipWith
  unfold distortAll pipePairs
  rw [htake]
  by_cases hscale : scales dev direction = true
  · simp [hscale, mapCoords_div_mul _ hdown]
  · simp [hscale]

variable {op : ModuleRef → Piece → List Point → List Point}

theorem distortAll_of_none {pairs : List (ModuleRef × Piece)}
    (hnone : ∀ p ∈ pairs, distorts dev iopOrder direction p.1 p.2 = false) :
    distortAll dev iopOrder direction points op pairs = points := by
  unfold distortAll
  induction pairs with
  | nil => rfl
  | cons p pairs ih =>
    rw [foldl_cons, hnone p mem_cons_self]
    exact ih fun q hq => hnone q (mem_cons_of_mem _ hq)

theorem length_distortAll (hop : ∀ m piece points, (op m piece points).length = points.length)
    (pairs : List (ModuleRef × Piece)) :
    (distortAll dev iopOrder direction points op pairs).length = points.length := by
  unfold distortAll
  induction pairs generalizing points with
  | nil => rfl
  | cons p pairs ih =>
    rw [foldl_cons, ih]
    split
    · exact hop ..
    · rfl

/-! ## When the points come back -/

/-- Only the first module of the pipe may be one that distorts. -/
def OnlyFirstDistorts (dev : Develop) (pipe : Pixelpipe) (iopOrder : ℚ)
    (direction : TransfDirection) : Prop :=
  ∀ p ∈ (pipePairs pipe).drop 1, distorts dev iopOrder direction p.1 p.2 = false

theorem roundTrip_of_onlyFirst (hlen : pipe.iop.length = pipe.nodes.length)
    (hdown : dev.previewDownsampling ≠ 0) (hops : ops.Undoes)
    (honly : OnlyFirstDistorts dev pipe iopOrder direction) :
    distortRoundTrip ops dev pipe iopOrder direction points = points := by
  rw [distortRoundTrip_eq hlen hdown]
  unfold OnlyFirstDistorts at honly
  cases hpairs : pipePairs pipe with
  | nil => rfl
  | cons p pairs =>
    rw [hpairs] at honly
    have hrest : distortAll dev iopOrder direction points ops.transform (p :: pairs) =
        distortAll dev iopOrder direction points ops.transform [p] :=
      distortAll_of_none honly
    rw [hrest]
    unfold distortAll
    simp only [take_succ_cons, take_zero, foldl_cons, foldl_nil]
    by_cases hp : distorts dev iopOrder direction p.1 p.2 = true
    · rw [if_pos hp, if_pos hp]
      exact hops p.1 p.2 points
    · rw [if_neg hp, if_neg hp]

-- every module moves the points to the right by one
def shiftOps : DistortOps where
  transform _ _ points := points.map fun p => (p.1 + 1, p.2)
  backtransform _ _ points := points.map fun p => (p.1 - 1, p.2)
  length_transform _ _ _ := length_map _
  length_backtransform _ _ _ := length_map _

theorem shiftOps_undoes : shiftOps.Undoes := by
  intro m piece points
  simp only [shiftOps, map_map]
  have hid : ((fun p : Point => (p.1 - 1, p.2)) ∘ fun p : Point => (p.1 + 1, p.2)) = id := by
    funext p
    simp
  rw [hid, map_id]

def distortCount (dev : Develop) (iopOrder : ℚ) (direction : TransfDirection)
    (pairs : List (ModuleRef × Piece)) : ℕ :=
  pairs.countP fun p => distorts dev iopOrder direction p.1 p.2

theorem distortAll_shift (c : ℚ) (op : ModuleRef → Piece → List Point → List Point)
    (hop : ∀ m piece points, op m piece points = points.map fun p => (p.1 + c, p.2))
    (pairs : List (ModuleRef × Piece)) :
    distortAll dev iopOrder direction points op pairs =
      points.map fun p => (p.1 + distortCount dev iopOrder direction pairs * c, p.2) := by
  unfold distortAll distortCount
  induction pairs generalizing points with
  | nil => simp
  | cons q pairs ih =>
    rw [foldl_cons, ih, countP_cons]
    by_cases hq : distorts dev iopOrder direction q.1 q.2 = true
    · rw [if_pos hq, if_pos hq, hop, map_map]
      apply map_congr_left
      intro p _
      simp only [Function.comp_apply, Prod.mk.injEq, and_true]
      push_cast
      ring
    · rw [if_neg hq, if_neg hq]
      simp

theorem onlyFirst_of_shift (hlen : pipe.iop.length = pipe.nodes.length)
    (hdown : dev.previewDownsampling ≠ 0) (hne : points ≠ [])
    (hround : distortRoundTrip shiftOps dev pipe iopOrder direction points = points) :
    OnlyFirstDistorts dev pipe iopOrder direction := by
  rw [distortRoundTrip_eq hlen hdown,
    distortAll_shift 1 shiftOps.transform (fun _ _ _ => rfl),
    distortAll_shift (-1) shiftOps.backtransform (fun _ _ _ => by
      simp only [shiftOps, sub_eq_add_neg]), map_map] at hround
  -- the first point has come back, so as many modules distort in front as in the whole pipe
  obtain ⟨p, rest, rfl⟩ := exists_cons_of_ne_nil hne
  have hhead : p.1 + distortCount dev iopOrder direction (pipePairs pipe) * 1 +
      distortCount dev iopOrder direction ((pipePairs pipe).take 1) * -1 = p.1 := by
    rw [map_cons, cons.injEq] at hround
    exact congrArg Prod.fst hround.1
  have hcount : distortCount dev iopOrder direction (pipePairs pipe) =
      distortCount dev iopOrder direction ((pipePairs pipe).take 1) := by
    have hcast : (distortCount dev iopOrder direction (pipePairs pipe) : ℚ) =
        distortCount dev iopOrder direction ((pipePairs pipe).take 1) := by linarith
    exact_mod_cast hcast
  have hsplit : distortCount dev iopOrder direction (pipePairs pipe) =
      distortCount dev iopOrder direction ((pipePairs pipe).take 1) +
      distortCount dev iopOrder direction ((pipePairs pipe).drop 1) := by
    unfold distortCount
    rw [← countP_append, take_append_drop]
  have hzero : distortCount dev iopOrder direction ((pipePairs pipe).drop 1) = 0 := by omega
  intro q hq
  have hfalse := countP_eq_zero.mp hzero q hq
  exact Bool.eq_false_iff.mpr hfalse

/-- The backward walk starts at the first node and goes back from there, so it undoes the first
module only: whatever the modules do, the points come back if and only if no module behind the
first one distorts, or there are no points. -/
theorem distortRoundTrip_iff (dev : Develop) (pipe : Pixelpipe) (iopOrder : ℚ)
    (direction : TransfDirection) (points : List Point)
    (hlen : pipe.iop.length = pipe.nodes.length) (hdown : dev.previewDownsampling ≠ 0) :
    (∀ ops : DistortOps, ops.Undoes →
        distortRoundTrip ops dev pipe iopOrder direction points = points) ↔
      points = [] ∨ OnlyFirstDistorts dev pipe iopOrder direction := by
  constructor
  · intro hall
    by_cases hne : points = []
    · exact Or.inl hne
    · exact Or.inr (onlyFirst_of_shift hlen hdown hne (hall shiftOps shiftOps_undoes))
  · intro hcond ops hops
    rcases hcond with rfl | honly
    · -- no module makes points out of nothing
      apply eq_nil_of_length_eq_zero
      rw [distortRoundTrip_eq hlen hdown, length_distortAll ops.length_backtransform,
        length_distortAll ops.length_transform, length_nil]
    · exact roundTrip_of_onlyFirst hlen hdown hops honly

end Ops

-- two enabled modules, nothing filtered and nothing scaled
def twoModules : Develop where
  focusHash := 0
  historyEnd := 0
  history := []
  iop := [0, 1]
  iopOrderList := sampleOrders
  forms := []
  guiModule := none
  previewDownsampling := 1
  mods := sampleModule

def twoPieces : Pixelpipe where
  iop := [0, 1]
  nodes := [⟨0, true, [0], [0]⟩, ⟨1, true, [0], [0]⟩]
  changed := {}

theorem distortRoundTrip_iff_twoPieces :
    (∀ ops : DistortOps, ops.Undoes →
        distortRoundTrip ops twoModules twoPieces 0 .all [(0, 0)] = [(0, 0)]) ↔
      [((0, 0) : Point)] = [] ∨ OnlyFirstDistorts twoModules twoPieces 0 .all :=
  distortRoundTrip_iff twoModules twoPieces 0 .all [(0, 0)] rfl one_ne_zero

theorem distortRoundTrip_twoPieces :
    shiftOps.Undoes ∧
      distortRoundTrip shiftOps twoModules twoPieces 0 .all [(0, 0)] ≠ [(0, 0)] := by
  refine ⟨shiftOps_undoes, fun hround => ?_⟩
  have honly := onlyFirst_of_shift rfl one_ne_zero (by simp) hround
  exact absurd (honly (1, ⟨1, true, [0], [0]⟩) (by decide)) (by decide)

end DTLite
