import DTLite.Common.Undo
import DTLite.Reasoning.LastWins

/-!
# Ratings

The stars of an image are the lowest three bits of its flags, and the next bit says whether it is
rejected.  Undo and redo of a rating give the image a rating once more, by the same function.
-/

namespace DTLite

open Reasoning List Function

-- `DT_VIEW_RATINGS_MASK` and `DT_IMAGE_REJECTED` of the flags
structure RatingFlags where
  stars : Fin 8
  rejected : Bool
deriving DecidableEq, Repr

-- the ratings of `dt_view_image_over_t`
def dtViewDesert : Fin 8 := 0
def dtViewStar1 : Fin 8 := 1
def dtViewReject : Fin 8 := 6

def dtRatingsGet (flags : RatingFlags) : Fin 8 :=
  if flags.rejected then dtViewReject else flags.stars

/-- `doubleTap` is the preference `rating_one_double_tap`. -/
def ratingsApplyToImage (doubleTap : Bool) (flags : RatingFlags) (rating : Fin 8) : RatingFlags :=
  if rating = dtViewReject then
    { flags with rejected := !flags.rejected }
  else if !doubleTap && dtRatingsGet flags = dtViewStar1 && rating = dtViewStar1 then
    { stars := dtViewDesert, rejected := false }
  else { stars := rating, rejected := false }

-- `dt_undo_ratings_t`
structure UndoRatings where
  imgid : Nat
  before : Fin 8
  after : Fin 8

-- The loop of `_ratings_apply`, with the list for undo.
def ratingsApply (doubleTap : Bool) (rating : Fin 8) (undoOn : Bool) :
    List Nat → (Nat → RatingFlags) → (Nat → RatingFlags) × List UndoRatings
  | [], flags => (flags, [])
  | imgid :: images, flags =>
      let rest := ratingsApply doubleTap rating undoOn images
        (update flags imgid (ratingsApplyToImage doubleTap (flags imgid) rating))
      (rest.1,
        if undoOn then ⟨imgid, dtRatingsGet (flags imgid), rating⟩ :: rest.2 else rest.2)

/-- With the data that it records. -/
def dtRatingsApplyOnList (doubleTap : Bool) (images : List Nat) (rating : Fin 8) (undoOn : Bool)
    (flags : Nat → RatingFlags) : (Nat → RatingFlags) × List UndoRatings :=
  ratingsApply doubleTap rating undoOn images flags

/-- `_pop_undo` of `ratings.c`. -/
def popUndoRatings (doubleTap : Bool) (action : UndoAction) (data : List UndoRatings)
    (flags : Nat → RatingFlags) : Nat → RatingFlags :=
  data.foldl (fun flags ratings => update flags ratings.imgid
    (ratingsApplyToImage doubleTap (flags ratings.imgid)
      (if action = .undo then ratings.before else ratings.after))) flags

/-- An image that counts as rejected loses its stars when it is given others. -/
def KeepsStars (flags : RatingFlags) (rating : Fin 8) : Prop :=
  dtRatingsGet flags = dtViewReject → rating = dtViewReject ∨ flags = ⟨rating, true⟩

instance decidableKeepsStars (flags : RatingFlags) (rating : Fin 8) :
    Decidable (KeepsStars flags rating) :=
  inferInstanceAs (Decidable (_ → _))

section Lists

variable {doubleTap : Bool} {images : List Nat} {rating : Fin 8} {flags : Nat → RatingFlags}

theorem ratingsApply_fst (undoOn : Bool) : (ratingsApply doubleTap rating undoOn images flags).1 =
    images.foldl (fun flags imgid => update flags imgid
      (ratingsApplyToImage doubleTap (flags imgid) rating)) flags := by
  induction images generalizing flags with
  | nil => rfl
  | cons imgid images ih => exact ih

theorem ratingsApply_snd (hnodup : images.Nodup) :
    (ratingsApply doubleTap rating true images flags).2 =
      images.map fun imgid => ⟨imgid, dtRatingsGet (flags imgid), rating⟩ := by
  induction images generalizing flags with
  | nil => rfl
  | cons imgid images ih =>
    obtain ⟨hnot, hnodup⟩ := nodup_cons.mp hnodup
    rw [ratingsApply, ih hnodup]
    refine congrArg _ (map_congr_left fun other hother => ?_)
    have hne : other ≠ imgid := fun heq => hnot (heq ▸ hother)
    rw [update_of_ne hne]

theorem undo_rating_eq_iff {flags : RatingFlags} : ratingsApplyToImage doubleTap
    (ratingsApplyToImage doubleTap flags rating) (dtRatingsGet flags) = flags ↔
      KeepsStars flags rating := by
  obtain ⟨stars, rejected⟩ := flags
  revert doubleTap rating stars rejected
  decide

theorem redo_rating_eq {flags : RatingFlags} : ratingsApplyToImage doubleTap
    (ratingsApplyToImage doubleTap (ratingsApplyToImage doubleTap flags rating)
      (dtRatingsGet flags)) rating = ratingsApplyToImage doubleTap flags rating := by
  obtain ⟨stars, rejected⟩ := flags
  revert doubleTap rating stars rejected
  decide

/-- Undo restores the stars and the rejected flag of every image, and redo what the call gave,
exactly if every image that counts as rejected keeps its stars. -/
theorem ratings_undo_redo_iff (hnodup : images.Nodup) {reached : Nat → RatingFlags}
    {data : List UndoRatings}
    (hcall : dtRatingsApplyOnList doubleTap images rating true flags = (reached, data)) :
    (popUndoRatings doubleTap .undo data reached = flags ∧
      popUndoRatings doubleTap .redo data (popUndoRatings doubleTap .undo data reached) =
        reached) ↔
    ∀ imgid ∈ images, KeepsStars (flags imgid) rating := by
  have hreached : reached = fun imgid => if imgid ∈ images then
      ratingsApplyToImage doubleTap (flags imgid) rating else flags imgid := by
    funext imgid
    have hfst : reached = _ := (congrArg Prod.fst hcall).symm.trans (ratingsApply_fst true)
    rw [hfst]
    exact foldl_update_each hnodup (fun _ f => ratingsApplyToImage doubleTap f rating) flags imgid
  have hpop : ∀ action t, popUndoRatings doubleTap action data t = fun imgid =>
      if imgid ∈ images then ratingsApplyToImage doubleTap (t imgid)
        (if action = .undo then dtRatingsGet (flags imgid) else rating)
      else t imgid := by
    intro action t
    funext imgid
    have hsnd : data = _ := (congrArg Prod.snd hcall).symm.trans (ratingsApply_snd hnodup)
    rw [hsnd, popUndoRatings, foldl_map]
    exact foldl_update_each hnodup (fun imgid f => ratingsApplyToImage doubleTap f
      (if action = .undo then dtRatingsGet (flags imgid) else rating)) t imgid
  rw [hpop, hpop, hreached]
  constructor
  · rintro ⟨hundo, -⟩ imgid himg
    have hat := congrFun hundo imgid
    simp only [if_pos himg] at hat
    exact undo_rating_eq_iff.mp hat
  · intro hkeeps
    refine ⟨funext fun imgid => ?_, funext fun imgid => ?_⟩
    · by_cases himg : imgid ∈ images
      · simp only [if_pos himg, if_true]
        exact undo_rating_eq_iff.mpr (hkeeps imgid himg)
      · simp only [if_neg himg]
    · by_cases himg : imgid ∈ images
      · simp only [if_pos himg, if_true]
        exact redo_rating_eq
      · simp only [if_neg himg]

end Lists

def firstRejected (imgid : Nat) : RatingFlags := if imgid = 1 then ⟨2, true⟩ else ⟨3, false⟩

/-- Rejecting both turns the first one back. -/
theorem ratings_undo_redo_toggled :
    popUndoRatings false .undo [⟨1, 6, 6⟩, ⟨2, 3, 6⟩]
      (dtRatingsApplyOnList false [1, 2] 6 true firstRejected).1 = firstRejected :=
  ((ratings_undo_redo_iff (by decide)
    (rfl : dtRatingsApplyOnList false [1, 2] 6 true firstRejected = (_, _))).mpr (by decide)).1

/-- A rejected image with three stars is given one, and undo gives it back with one. -/
theorem ratings_undo_loses_stars :
    ∃ data reached, dtRatingsApplyOnList true [1] 1 true (fun _ => ⟨3, true⟩) = (reached, data) ∧
      popUndoRatings true .undo data reached 1 = ⟨1, true⟩ :=
  ⟨_, _, rfl, rfl⟩

end DTLite
