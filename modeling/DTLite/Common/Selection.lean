import Mathlib.Data.Int.Notation
import Mathlib.Logic.Basic

/-!
# The selection

The functions that change `main.selected_images`, with the state of the browser they belong to. Each
of them is to discard the cached list of the images to act on.
-/

namespace DTLite

/-- `dt_collection_t`, by the rows of its queries. -/
structure Collection where
  query : List Int
  queryNoGroup : List Int
  -- the rows of `query` with `COLLECTION_FILTER_UNALTERED`
  queryUnaltered : List Int
  -- the ids of images count from 1
  positive : ∀ id ∈ queryNoGroup, 1 ≤ id

/-- The images, how they are grouped, and what is collected. -/
structure Gallery where
  -- `main.images`
  images : List Int
  filmOf : Int → Option Int
  -- `none` if the image cache has no such image
  groupOf : Int → Option Int
  -- `memory.collected_images`, whose rowids count from 1
  collected : List Int
  grouping : Bool
  expandedGroupId : Int
  -- `selection->collection`
  collection : Option Collection
  -- the rows that `_images_to_act_on_insert_in_list` gets for a group
  actOnGroup : Int → List Int

-- `SELECT id FROM main.images WHERE group_id = ?`.
def Gallery.groupRows (env : Gallery) (group : Int) : List Int :=
  env.images.filter fun id => env.groupOf id = some group

def Gallery.single (env : Gallery) (group : Int) : Bool :=
  !env.grouping || env.expandedGroupId == group

-- `act_on` of the view manager.
structure ActOn where
  images : List Int
  ok : Bool
  imageOver : Int
  insideTable : Bool
  activeImgs : List Int
deriving DecidableEq, Repr

/-- What the images to act on depend on, and the cached list of them. -/
structure Browser where
  mouseOver : Int
  mouseInside : Bool
  activeImages : List Int
  -- `main.selected_images`
  selected : Int → Bool
  lastSingleId : Int
  actOn : ActOn

namespace Browser

variable (b : Browser)

-- `_selection_raise_signal`.
def raiseSignal : Browser := { b with actOn := { b.actOn with ok := false } }

-- `DELETE FROM main.selected_images`.
def deleteSelected : Browser := { b with selected := fun _ => false }

-- `INSERT OR IGNORE INTO main.selected_images …`.
def insertSelected (ids : List Int) : Browser :=
  { b with selected := fun id => b.selected id || ids.contains id }

-- `DELETE FROM main.selected_images WHERE imgid IN (…)`.
def removeSelected (ids : Int → Bool) : Browser :=
  { b with selected := fun id => b.selected id && !ids id }

end Browser

/-! ## The functions -/

variable (env : Gallery)

def selectionSelect (b : Browser) (imgid : Int) : Browser :=
  let b :=
    if imgid = -1 then b
    else
      match env.groupOf imgid with
      | none => b
      | some group =>
          match env.collection with
          | none => b.insertSelected [imgid]
          | some collection =>
              if env.single group then b.insertSelected [imgid]
              else b.insertSelected ((env.groupRows group).filter collection.queryNoGroup.contains)
  b.raiseSignal

def dtSelectionInvert (b : Browser) : Browser :=
  match env.collection with
  | none => b
  | some collection =>
      ((b.deleteSelected.insertSelected collection.query).removeSelected b.selected).raiseSignal

def dtSelectionClear (b : Browser) : Browser := b.deleteSelected.raiseSignal

def dtSelectionSelect (b : Browser) (imgid : Int) : Browser :=
  if imgid < 1 then b else { selectionSelect env b imgid with lastSingleId := imgid }

def dtSelectionDeselect (b : Browser) (imgid : Int) : Browser :=
  let b := { b with lastSingleId := -1 }
  let b :=
    if imgid = -1 then b
    else
      match env.groupOf imgid with
      | none => b
      | some group =>
          if env.single group then b.removeSelected (· = imgid)
          else b.removeSelected (env.groupRows group).contains
  b.raiseSignal

/-- The selection is emptied first; the cached list is only discarded by `dt_selection_select`, and
not for an id below 1. -/
def dtSelectionSelectSingle (b : Browser) (imgid : Int) : Browser :=
  dtSelectionSelect env { b with lastSingleId := imgid }.deleteSelected imgid

def dtSelectionToggle (b : Browser) (imgid : Int) : Browser :=
  if imgid = -1 then b
  else if b.selected imgid then (dtSelectionDeselect env b imgid).raiseSignal
  else { dtSelectionSelect env b imgid with lastSingleId := imgid }.raiseSignal

def dtSelectionSelectAll (b : Browser) : Browser :=
  match env.collection with
  | none => b
  | some collection =>
      { b.deleteSelected.insertSelected collection.queryNoGroup with
        lastSingleId := -1 }.raiseSignal

-- The loop over the collection: the rows of the two images, `-1` for one that was not met.
def rangeRows (lastSingleId imgid : Int) : List Int → Int → Int → Int → Int × Int
  | [], _, sr, er => (sr, er)
  | id :: ids, rc, sr, er =>
      let sr := if id = lastSingleId then rc else sr
      let er := if id = imgid then rc else er
      if sr ≠ -1 ∧ er ≠ -1 then (sr, er) else rangeRows lastSingleId imgid ids (rc + 1) sr er

-- "if last_single_id not in collection, we either use last selected image or first collected one".
def rangeStart (b : Browser) (sr : Int) : Int × Int :=
  if sr < 0 then
    match (env.collected.zipIdx.filter fun row => b.selected row.1).getLast? with
    | none => (0, -1)
    | some (imgid, index) => (index + 1, imgid)
  else (sr, b.lastSingleId)

def dtSelectionSelectRange (b : Browser) (imgid : Int) : Browser :=
  match env.collection with
  | none => b
  | some collection =>
      let rows := rangeRows b.lastSingleId imgid collection.queryNoGroup 0 (-1) (-1)
      let er := rows.2
      if er < 0 then b
      else
        let start := rangeStart env b rows.1
        let sr := start.1
        let range := (collection.queryNoGroup.drop (min sr er).toNat).take
          (max sr er - min sr er + 1).toNat
        dtSelectionSelect env (dtSelectionSelect env (b.insertSelected range) start.2) imgid

def dtSelectionSelectFilmroll (b : Browser) : Browser :=
  let films := (env.images.filter b.selected).filterMap env.filmOf
  { b.deleteSelected.insertSelected
      (env.images.filter fun id => (env.filmOf id).any films.contains) with
    lastSingleId := -1 }.raiseSignal

def dtSelectionSelectUnaltered (b : Browser) : Browser :=
  match env.collection with
  | none => b
  | some collection =>
      { b.deleteSelected.insertSelected collection.queryUnaltered with
        lastSingleId := -1 }.raiseSignal

def dtSelectionSelectList (b : Browser) (list : List Int) : Browser :=
  match list.getLast? with
  | none => b
  | some imgid => { b.insertSelected list with lastSingleId := imgid }.raiseSignal

inductive SelectionCall
  | invert
  | clear
  | select (imgid : Int)
  | deselect (imgid : Int)
  | selectSingle (imgid : Int)
  | toggle (imgid : Int)
  | selectAll
  | selectRange (imgid : Int)
  | selectFilmroll
  | selectUnaltered
  | selectList (list : List Int)
deriving DecidableEq, Repr

def SelectionCall.run (b : Browser) : SelectionCall → Browser
  | invert => dtSelectionInvert env b
  | clear => dtSelectionClear b
  | select imgid => dtSelectionSelect env b imgid
  | deselect imgid => dtSelectionDeselect env b imgid
  | selectSingle imgid => dtSelectionSelectSingle env b imgid
  | toggle imgid => dtSelectionToggle env b imgid
  | selectAll => dtSelectionSelectAll env b
  | selectRange imgid => dtSelectionSelectRange env b imgid
  | selectFilmroll => dtSelectionSelectFilmroll env b
  | selectUnaltered => dtSelectionSelectUnaltered env b
  | selectList list => dtSelectionSelectList b list

/-- A change that discards the cached list, or leaves it and all that the list was made from. -/
def Browser.Discards (b b' : Browser) : Prop :=
  b'.actOn.ok = false ∨ b'.selected = b.selected ∧ b'.actOn = b.actOn

variable {env} {b : Browser}

theorem discards_refl : b.Discards b := .inr ⟨rfl, rfl⟩

theorem ok_dtSelectionSelect {imgid : Int} (h : 1 ≤ imgid) :
    (dtSelectionSelect env b imgid).actOn.ok = false := by
  rw [dtSelectionSelect, if_neg (by omega)]
  rfl

theorem discards_dtSelectionSelect (imgid : Int) : b.Discards (dtSelectionSelect env b imgid) := by
  by_cases h : imgid < 1
  · rw [dtSelectionSelect, if_pos h]
    exact discards_refl
  · exact .inl (ok_dtSelectionSelect (by omega))

theorem mem_of_rangeRows {lastSingleId imgid : Int} {ids : List Int} {rc sr : Int}
    (h : imgid ∉ ids) : (rangeRows lastSingleId imgid ids rc sr (-1)).2 = -1 := by
  induction ids generalizing rc sr with
  | nil => rfl
  | cons id ids ih =>
    have hne : ¬ id = imgid := fun heq => h (heq ▸ List.mem_cons_self)
    rw [rangeRows]
    simp only [if_neg hne, ne_eq, not_true_eq_false, and_false]
    exact ih fun hmem => h (List.mem_cons_of_mem id hmem)

theorem discards_dtSelectionSelectRange (imgid : Int) :
    b.Discards (dtSelectionSelectRange env b imgid) := by
  rw [dtSelectionSelectRange]
  cases hcollection : env.collection with
  | none => exact discards_refl
  | some collection =>
    by_cases hmem : imgid ∈ collection.queryNoGroup
    · dsimp only
      split
      · exact discards_refl
      · exact .inl (ok_dtSelectionSelect (collection.positive imgid hmem))
    · dsimp only
      rw [if_pos (by rw [mem_of_rangeRows hmem]; decide)]
      exact discards_refl

/-- Every function does it, but for `dt_selection_select_single` on an id below 1 when something is
selected. -/
theorem SelectionCall.discards {call : SelectionCall}
    (h : ∀ imgid, call = .selectSingle imgid → 1 ≤ imgid ∨ ∀ id, b.selected id = false) :
    b.Discards (call.run env b) := by
  cases call with
  | invert =>
    show b.Discards (dtSelectionInvert env b)
    rw [dtSelectionInvert]
    split
    · exact discards_refl
    · exact .inl rfl
  | clear => exact .inl rfl
  | select imgid => exact discards_dtSelectionSelect imgid
  | deselect imgid => exact .inl rfl
  | selectSingle imgid =>
    rcases h imgid rfl with hpos | hnone
    · exact .inl (ok_dtSelectionSelect hpos)
    · have hempty : (fun _ => false) = b.selected := funext fun id => (hnone id).symm
      rcases discards_dtSelectionSelect imgid with hok | ⟨hselected, hactOn⟩
      · exact .inl hok
      · exact .inr ⟨hselected.trans hempty, hactOn⟩
  | toggle imgid =>
    show b.Discards (dtSelectionToggle env b imgid)
    rw [dtSelectionToggle]
    split
    · exact discards_refl
    · split
      · exact .inl rfl
      · exact .inl rfl
  | selectAll =>
    show b.Discards (dtSelectionSelectAll env b)
    rw [dtSelectionSelectAll]
    split
    · exact discards_refl
    · exact .inl rfl
  | selectRange imgid => exact discards_dtSelectionSelectRange imgid
  | selectFilmroll => exact .inl rfl
  | selectUnaltered =>
    show b.Discards (dtSelectionSelectUnaltered env b)
    rw [dtSelectionSelectUnaltered]
    split
    · exact discards_refl
    · exact .inl rfl
  | selectList list =>
    show b.Discards (dtSelectionSelectList b list)
    rw [dtSelectionSelectList]
    split
    · exact discards_refl
    · exact .inl rfl

end DTLite
