import DTLite.Common.Selection
import Mathlib.Data.List.Basic

/-!
# Selecting a range

`dt_selection_select_range` counts the images of the collection from 0 to find the last clicked
image and the target. If the last clicked image is not collected it goes by the rowid of another
one in `memory.collected_images`, and rowids count from 1.
-/

namespace DTLite

open List

def dtCollectionMemoryUpdate (env : Gallery) : Gallery :=
  match env.collection with
  | none => env
  | some collection => { env with collected := collection.query }

/-- Without groups both queries are one, and the query gives an image once. -/
structure Gallery.Ungrouped (env : Gallery) (c : Collection) : Prop where
  collection : env.collection = some c
  grouping : env.grouping = false
  query : c.query = c.queryNoGroup
  nodup : c.queryNoGroup.Nodup
  updated : dtCollectionMemoryUpdate env = env

-- the last selected image among some images, with its position
def Browser.lastSelected? (b : Browser) (ids : List Int) : Option (Int × Nat) :=
  (ids.zipIdx.filter fun row => b.selected row.1).getLast?

/-- The position of the last clicked image, else of the last selected one, else the first one. -/
def Browser.startPosition (b : Browser) (ids : List Int) : Nat :=
  if b.lastSingleId ∈ ids then ids.idxOf b.lastSingleId
  else ((b.lastSelected? ids).map Prod.snd).getD 0

-- the images at the positions from one of the two to the other one
def between (ids : List Int) (p q : Nat) : List Int :=
  (ids.drop (min p q)).take (max p q + 1 - min p q)

/-- The images between the start and the target are selected as well, and no others. -/
def SelectsRange (b b' : Browser) (ids : List Int) (imgid : Int) : Prop :=
  ∀ id, b'.selected id = true ↔ b.selected id = true ∨
    id ∈ between ids (b.startPosition ids) (ids.idxOf imgid)

/-- If the start is the last selected image, it stands before the target or at the very end. -/
def StartCounts (b : Browser) (ids : List Int) (imgid : Int) : Prop :=
  b.lastSingleId ∈ ids ∨ ∀ row ∈ b.lastSelected? ids,
    row.2 < ids.idxOf imgid ∨ row.2 + 1 = ids.length

variable {env : Gallery} {c : Collection} {b : Browser} {ids : List Int} {id imgid last : Int}
  {p q : Nat}

theorem mem_between (hp : ids[p]? = some id) : id ∈ between ids p q := by
  have hle : min p q + (p - min p q) = p := by omega
  rw [between, mem_iff_getElem?]
  refine ⟨p - min p q, ?_⟩
  rw [getElem?_take_of_lt (by omega), getElem?_drop, hle, hp]

theorem between_comm : between ids p q = between ids q p := by
  rw [between, between, Nat.min_comm, Nat.max_comm]

-- Once one of the two has been found the other one is looked for alone.
theorem rangeRows_eq (hids : ids.Nodup) {rc sr er : Int} (hsr : sr = -1 ∨ last ∉ ids)
    (her : er = -1 ∨ imgid ∉ ids) :
    rangeRows last imgid ids rc sr er =
      (if last ∈ ids then rc + ids.idxOf last else sr,
        if imgid ∈ ids then rc + ids.idxOf imgid else er) := by
  induction ids generalizing rc sr er with
  | nil => rfl
  | cons x ids ih =>
    obtain ⟨hx, hids⟩ := nodup_cons.mp hids
    -- the row of one of the two images, before and after this turn
    have hrow : ∀ (y r : Int), r = -1 ∨ y ∉ x :: ids →
        ((if x = y then rc else r) = -1 ∨ y ∉ ids) ∧
          (if y ∈ x :: ids then rc + (x :: ids).idxOf y else r) =
            if y ∈ ids then rc + 1 + ids.idxOf y else if x = y then rc else r := by
      intro y r hr
      by_cases hxy : x = y
      · subst hxy
        simp [hx]
      · refine ⟨?_, ?_⟩
        · rw [if_neg hxy]
          exact hr.imp_right fun hnot hmem => hnot (mem_cons_of_mem x hmem)
        · by_cases hmem : y ∈ ids
          · rw [if_pos hmem, if_pos (mem_cons_of_mem x hmem), idxOf_cons_ne ids hxy]
            omega
          · rw [if_neg hmem, if_neg hxy, if_neg (by simp [Ne.symm hxy, hmem])]
    obtain ⟨hsr', hsr⟩ := hrow last sr hsr
    obtain ⟨her', her⟩ := hrow imgid er her
    rw [rangeRows, hsr, her]
    generalize (if x = last then rc else sr) = sr' at hsr' ⊢
    generalize (if x = imgid then rc else er) = er' at her' ⊢
    split
    case isTrue hboth => rw [if_neg (hsr'.resolve_left hboth.1), if_neg (her'.resolve_left hboth.2)]
    case isFalse => exact ih hids hsr' her'

/-! ## What is selected -/

-- The image is selected already.
theorem dtSelectionSelect_selected (h : env.grouping = false)
    (hid : 1 ≤ imgid → b.selected imgid = true) :
    (dtSelectionSelect env b imgid).selected = b.selected := by
  rw [dtSelectionSelect]
  split
  case isTrue => rfl
  case isFalse hpos =>
    have hinsert : (b.insertSelected [imgid]).selected = b.selected := by
      funext id
      by_cases heq : id = imgid
      · simp [Browser.insertSelected, heq, hid (by omega)]
      · simp [Browser.insertSelected, heq]
    rw [selectionSelect]
    split
    · rfl
    · split
      · rfl
      · split
        · exact hinsert
        · rw [if_pos (by simp [Gallery.single, h])]
          exact hinsert

theorem Gallery.Ungrouped.collected (h : env.Ungrouped c) : env.collected = c.queryNoGroup := by
  rw [← h.updated, dtCollectionMemoryUpdate, h.collection, ← h.query]

/-- What the code selects, if it starts at the row `sr` with the image `srid`. -/
theorem Gallery.Ungrouped.selected_iff (h : env.Ungrouped c) (hmem : imgid ∈ c.queryNoGroup)
    {sr : Nat} {srid : Int}
    (hstart : rangeStart env b (if b.lastSingleId ∈ c.queryNoGroup then
      (c.queryNoGroup.idxOf b.lastSingleId : Int) else -1) = ((sr : Int), srid))
    (hsrid : 1 ≤ srid → b.selected srid = true ∨ c.queryNoGroup[sr]? = some srid) :
    (dtSelectionSelectRange env b imgid).selected id = true ↔ b.selected id = true ∨
      id ∈ between c.queryNoGroup sr (c.queryNoGroup.idxOf imgid) := by
  have hrows : rangeRows b.lastSingleId imgid c.queryNoGroup 0 (-1) (-1) = _ :=
    rangeRows_eq h.nodup (.inl rfl) (.inl rfl)
  simp only [Int.zero_add, if_pos hmem] at hrows
  rw [dtSelectionSelectRange, h.collection]
  dsimp only
  rw [hrows]
  rw [if_neg (by omega), hstart]
  generalize hids : c.queryNoGroup = ids at *
  generalize her : ids.idxOf imgid = er
  have hlast : imgid ∈ between ids sr er := her ▸ between_comm ▸ mem_between (getElem?_idxOf hmem)
  rw [show (max (sr : Int) er - min (sr : Int) er + 1).toNat = max sr er + 1 - min sr er by omega,
    show (min (sr : Int) er).toNat = min sr er by omega, ← between]
  have hrange : ∀ y, (b.insertSelected (between ids sr er)).selected y = true ↔
      b.selected y = true ∨ y ∈ between ids sr er := by
    intro y
    simp [Browser.insertSelected]
  generalize b.insertSelected _ = b' at *
  -- the two images that are selected once more are selected already
  have hselect := dtSelectionSelect_selected (b := b') h.grouping fun hpos =>
    (hrange srid).mpr ((hsrid hpos).imp_right mem_between)
  rw [dtSelectionSelect_selected h.grouping, hselect, hrange]
  intro _
  rw [hselect]
  exact (hrange imgid).mpr (.inr hlast)

/-! ## The start -/

theorem rangeStart_of_neg {sr : Int} (h : sr < 0) :
    rangeStart env b sr = ((b.lastSelected? env.collected).map fun row =>
      (((row.2 + 1 : Nat) : Int), row.1)).getD (0, -1) := by
  rw [rangeStart, if_pos h, Browser.lastSelected?]
  cases (env.collected.zipIdx.filter fun row => b.selected row.1).getLast? <;> rfl

theorem lastSelected?_eq_some {row : Int × Nat} (h : b.lastSelected? ids = some row) :
    ids[row.2]? = some row.1 ∧ b.selected row.1 = true ∧
      ∀ p id, ids[p]? = some id → b.selected id = true → p ≤ row.2 := by
  obtain ⟨rows, hrows⟩ := getLast?_eq_some_iff.mp h
  have hiff : ∀ x, x ∈ rows ++ [row] ↔ ids[x.2]? = some x.1 ∧ b.selected x.1 = true := by
    intro x
    rw [← hrows, mem_filter, mem_zipIdx_iff_getElem?]
  -- the positions in the list increase
  have hpairs : (rows ++ [row]).Pairwise fun x y => x.2 < y.2 := by
    rw [← hrows]
    apply Pairwise.filter
    rw [← pairwise_map (f := Prod.snd) (R := (· < ·)), zipIdx_map_snd]
    exact pairwise_lt_range' 1
  obtain ⟨hget, hselected⟩ := (hiff row).mp (by simp)
  refine ⟨hget, hselected, fun p id hp hid => ?_⟩
  rcases mem_append.mp ((hiff (id, p)).mpr ⟨hp, hid⟩) with hmem | hmem
  · exact Nat.le_of_lt ((pairwise_append.mp hpairs).2.2 _ hmem row mem_cons_self)
  · exact Nat.le_of_eq (congrArg Prod.snd (mem_singleton.mp hmem))

-- The row that is taken is the one behind the start, so the image there may come in too.
theorem mem_between_succ_iff (hids : ids.Nodup) {row : Int × Nat}
    (h : b.lastSelected? ids = some row) {er : Nat} :
    (∀ id, b.selected id = true ∨ id ∈ between ids (row.2 + 1) er ↔
      b.selected id = true ∨ id ∈ between ids row.2 er) ↔
        row.2 < er ∨ row.2 + 1 = ids.length := by
  obtain ⟨hget, hselected, hmax⟩ := lastSelected?_eq_some h
  obtain ⟨hlt, hrow⟩ := List.getElem?_eq_some_iff.mp hget
  rcases Nat.lt_or_ge row.2 er with hbefore | hbehind
  · -- the start itself is selected already
    have hcons : between ids row.2 er = row.1 :: between ids (row.2 + 1) er := by
      have hlen : max row.2 er + 1 - row.2 = max (row.2 + 1) er + 1 - (row.2 + 1) + 1 := by omega
      rw [between, between, Nat.min_eq_left (by omega), Nat.min_eq_left (by omega), hlen,
        drop_eq_getElem_cons hlt, hrow, take_succ_cons]
    refine iff_of_true (fun id => ?_) (.inl hbefore)
    rw [hcons, mem_cons, or_left_comm, iff_or_self]
    rintro rfl
    exact .inl hselected
  · have hconcat : between ids (row.2 + 1) er = between ids row.2 er ++ ids[row.2 + 1]?.toList := by
      have hlen : row.2 + 1 + 1 - er = row.2 + 1 - er + 1 := by omega
      have hpos : er + (row.2 + 1 - er) = row.2 + 1 := by omega
      rw [between, between, Nat.min_eq_right (by omega), Nat.min_eq_right (by omega),
        Nat.max_eq_left (by omega), Nat.max_eq_left (by omega), hlen, take_add_one, getElem?_drop,
        hpos]
    have hnodup : (between ids (row.2 + 1) er).Nodup :=
      hids.sublist ((take_sublist _ _).trans (drop_sublist _ _))
    rw [hconcat] at hnodup ⊢
    cases hnext : ids[row.2 + 1]? with
    | none =>
      have := getElem?_eq_none_iff.mp hnext
      exact iff_of_true (by simp) (.inr (by omega))
    | some x =>
      -- the image behind the start is neither selected nor in the range
      rw [hnext] at hnodup
      have := (List.getElem?_eq_some_iff.mp hnext).1
      refine iff_of_false (fun hsame => ?_) (by omega)
      rcases (hsame x).mp (.inr (by simp)) with hsel | hmem
      · have := hmax _ _ hnext hsel
        omega
      · exact (nodup_append.mp hnodup).2.2 x hmem x mem_cons_self rfl

/-- Selecting a range adds the images between the start and the target exactly if the start is not
found by its rowid, or the image behind it does not matter. -/
theorem dtSelectionSelectRange_selects_iff (h : env.Ungrouped c) (hmem : imgid ∈ c.queryNoGroup) :
    SelectsRange b (dtSelectionSelectRange env b imgid) c.queryNoGroup imgid ↔
      StartCounts b c.queryNoGroup imgid := by
  rw [StartCounts, SelectsRange, Browser.startPosition]
  by_cases hlast : b.lastSingleId ∈ c.queryNoGroup
  · -- the last clicked image was met in the loop
    have hstart : rangeStart env b (c.queryNoGroup.idxOf b.lastSingleId : Int) =
        ((c.queryNoGroup.idxOf b.lastSingleId : Int), b.lastSingleId) :=
      if_neg (by omega)
    refine iff_of_true (fun id => ?_) (.inl hlast)
    rw [h.selected_iff hmem (by rw [if_pos hlast, hstart])
      fun _ => .inr (getElem?_idxOf hlast), if_pos hlast]
  · have hstart : rangeStart env b (-1) = _ := rangeStart_of_neg (by decide)
    rw [h.collected] at hstart
    rw [if_neg hlast]
    cases hselected : b.lastSelected? c.queryNoGroup with
    | none =>
      rw [hselected] at hstart
      refine iff_of_true (fun id => ?_) (.inr (by simp))
      exact @Gallery.Ungrouped.selected_iff env c b id imgid h hmem 0 (-1)
        (by rw [if_neg hlast]; exact hstart)
        fun hpos => absurd hpos (by decide)
    | some row =>
      rw [hselected] at hstart
      have hcode := fun id => @Gallery.Ungrouped.selected_iff env c b id imgid h hmem (row.2 + 1)
        row.1 (by rw [if_neg hlast]; exact hstart)
        fun _ => .inl (lastSelected?_eq_some hselected).2.1
      simp only [hcode, Option.map_some, Option.getD_some, mem_between_succ_iff h.nodup hselected]
      simp [hlast]

def threeCollected : Collection where
  query := [1, 2, 3]
  queryNoGroup := [1, 2, 3]
  queryUnaltered := []
  positive := by simp

def threeImages : Gallery where
  images := [1, 2, 3]
  filmOf _ := some 1
  groupOf := some
  collected := [1, 2, 3]
  grouping := false
  expandedGroupId := -1
  collection := some threeCollected
  actOnGroup _ := []

theorem threeImages_ungrouped : threeImages.Ungrouped threeCollected :=
  ⟨rfl, rfl, rfl, by simp [threeCollected], rfl⟩

-- Nothing was clicked last, and the second image is selected.
def secondSelected : Browser where
  mouseOver := -1
  mouseInside := false
  activeImages := []
  selected id := id = 2
  lastSingleId := -1
  actOn := ⟨[], false, -1, false, []⟩

theorem dtSelectionSelectRange_selects_third :
    SelectsRange secondSelected (dtSelectionSelectRange threeImages secondSelected 3)
      [1, 2, 3] 3 :=
  (dtSelectionSelectRange_selects_iff threeImages_ungrouped (by simp [threeCollected])).mpr
    (.inr (by decide))

/-- The range from the second image back to the first one takes the third one in. -/
theorem dtSelectionSelectRange_takes_third :
    threeImages.Ungrouped threeCollected ∧
      (dtSelectionSelectRange threeImages secondSelected 1).selected 3 = true ∧
      ¬ SelectsRange secondSelected (dtSelectionSelectRange threeImages secondSelected 1)
        [1, 2, 3] 1 := by
  refine ⟨threeImages_ungrouped, by decide, fun h => ?_⟩
  exact absurd ((h 3).mp (by decide)) (by decide)

end DTLite
