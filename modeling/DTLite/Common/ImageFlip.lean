import DTLite.Common.HistoryHash
import DTLite.Reasoning.LastWins
import Mathlib.Algebra.Order.Group.Int

/-!
# Turning an image

`dt_image_set_flip` does not go through the darkroom: it puts a row of the module flip on top of the
history and moves `history_end` above it, and with it above the rows that were undone.
-/

namespace DTLite

open Reasoning Database List Option

def flipRow (imgid : ImgId) (num orientation : Int) : HistoryRow where
  imgid := imgid
  num := some num
  module := some 2
  operation := some "flip"
  opParams := some (intBytes orientation)
  enabled := some 1
  blendopParams := none
  blendopVersion := some 0
  multiPriority := some 0
  multiName := some ""

/-- Without the thumbnails, the cached size and the sidecar. -/
def dtImageSetFlip (md5 : Blob → Blob) (db : Database) (imgid : ImgId) (orientation : Int) :
    Database :=
  let num := nextNum (db.historyOf imgid)
  let inserted := db.insertHistory [flipRow imgid num orientation]
  let moved := inserted.setHistoryEnd imgid ((maxNum (inserted.historyOf imgid)).map (· + 1))
  dtHistoryHashWriteFromHistory md5 moved imgid { current := true }

/-- The rows below `history_end`, in the order in which they are applied. -/
def activeHistory (db : Database) (imgid : ImgId) : List HistoryRow :=
  (db.historyByNum imgid).filter fun row => (db.historyEnd imgid).any (numBelow row.num)

/-- The history with every undone row back in it: all rows that have a number. -/
def redoneHistory (db : Database) (imgid : ImgId) : List HistoryRow :=
  (db.historyByNum imgid).filter fun row => row.num.isSome

def HistoryRow.setting (row : HistoryRow) : HistoryRow := { row with num := none }

/-- The last row of an operation wins. -/
def lastSetting (op : String) (rows : List HistoryRow) : Option HistoryRow :=
  (lastFor HistoryRow.operation (some op) rows).map HistoryRow.setting

variable {row : HistoryRow} (rows : List HistoryRow) {op : String}

theorem lastSetting_concat_ne (h : row.operation ≠ some op) :
    lastSetting op (rows ++ [row]) = lastSetting op rows := by
  rw [lastSetting, lastFor_concat_ne _ _ h, lastSetting]

theorem lastSetting_concat_self (h : row.operation = some op) :
    lastSetting op (rows ++ [row]) = some row.setting := by
  rw [lastSetting, lastFor_concat_self _ _ h, map_some]

theorem lastSetting_redone_eq {db : Database} {imgid : ImgId}
    (h : ∀ row ∈ db.historyOf imgid, row.operation = some op →
      row.num.isSome → (db.historyEnd imgid).any (numBelow row.num)) :
    lastSetting op (redoneHistory db imgid) = lastSetting op (activeHistory db imgid) := by
  have hfilter : (redoneHistory db imgid).filter (fun row => row.operation = some op) =
      (activeHistory db imgid).filter fun row => row.operation = some op := by
    rw [redoneHistory, activeHistory, List.filter_filter, List.filter_filter]
    apply filter_congr
    intro row hrow
    have hmem : row ∈ db.historyOf imgid := (orderByNum_perm _ _).mem_iff.mp hrow
    by_cases hop : row.operation = some op
    · have hactive := h row hmem hop
      cases hnum : row.num with
      | none => cases db.historyEnd imgid <;> simp [numBelow]
      | some n =>
        rw [hnum] at hactive
        simp [hactive rfl]
    · simp [hop]
  rw [lastSetting, lastSetting, lastFor, lastFor, hfilter]

theorem lt_nextNum {rows : List HistoryRow} {n : Int} (hrow : row ∈ rows) (hn : row.num = some n) :
    n < nextNum rows := by
  have hmem : n ∈ rows.filterMap HistoryRow.num := mem_filterMap.mpr ⟨row, hrow, hn⟩
  cases hmax : (rows.filterMap HistoryRow.num).max? with
  | none =>
    rw [max?_eq_none_iff] at hmax
    simp [hmax] at hmem
  | some m =>
    have hle := (max?_eq_some_iff.mp hmax).2 n hmem
    rw [nextNum, hmax, map_some, getD_some]
    omega

theorem maxNum_concat_next (h : row.num = some (nextNum rows)) :
    maxNum (rows ++ [row]) = row.num := by
  rw [h, maxNum, max?_eq_some_iff, filterMap_append]
  constructor
  · simp [h]
  · intro n hn
    rcases mem_append.mp hn with hold | hnew
    · obtain ⟨old, hmem, hnum⟩ := mem_filterMap.mp hold
      exact (lt_nextNum hmem hnum).le
    · simp only [filterMap_cons, h, filterMap_nil, mem_singleton] at hnew
      omega

theorem orderByNum_concat {α : Type} {num : α → Option Int} {rows : List α} {last : α}
    (h : ∀ row ∈ rows, numLe (num row) (num last)) :
    orderByNum num (rows ++ [last]) = orderByNum num rows ++ [last] := by
  induction rows with
  | nil => rfl
  | cons row rows ih =>
    have hlast : numLe (num row) (num last) := h row mem_cons_self
    have hrest := ih fun row' hrow' => h row' (mem_cons_of_mem _ hrow')
    show orderedInsert _ row (orderByNum num (rows ++ [last])) =
      orderedInsert _ row (orderByNum num rows) ++ [last]
    rw [hrest]
    generalize orderByNum num rows = sorted
    induction sorted with
    | nil => simp [hlast]
    | cons x xs ihx =>
      by_cases hx : numLe (num row) (num x)
      · simp [hx]
      · simpa [hx] using ihx

section Flip

variable (md5 : Blob → Blob) (db : Database) (imgid : ImgId) (orientation : Int)

theorem historyByNum_dtImageSetFlip :
    (dtImageSetFlip md5 db imgid orientation).historyByNum imgid =
      db.historyByNum imgid ++ [flipRow imgid (nextNum (db.historyOf imgid)) orientation] := by
  have hrows : (dtImageSetFlip md5 db imgid orientation).historyOf imgid =
      db.historyOf imgid ++ [flipRow imgid (nextNum (db.historyOf imgid)) orientation] := by
    rw [dtImageSetFlip, (sameEdit_hashWrite ..).history]
    exact historyOf_insertHistory db imgid (by simp [flipRow])
  rw [historyByNum, hrows]
  apply orderByNum_concat
  intro row hrow
  cases hnum : row.num with
  | none => trivial
  | some n => exact (lt_nextNum hrow hnum).le

theorem historyEnd_dtImageSetFlip (himage : (db.images imgid).isSome) :
    (dtImageSetFlip md5 db imgid orientation).historyEnd imgid =
      some (nextNum (db.historyOf imgid) + 1) := by
  rw [dtImageSetFlip, (sameEdit_hashWrite ..).historyEnd, historyEnd_setHistoryEnd,
    historyOf_insertHistory db imgid (by simp [flipRow]), maxNum_concat_next _ rfl]
  obtain ⟨image, hsome⟩ := isSome_iff_exists.mp himage
  show (db.images imgid).bind _ = _
  rw [hsome]
  rfl

theorem activeHistory_dtImageSetFlip (himage : (db.images imgid).isSome) :
    activeHistory (dtImageSetFlip md5 db imgid orientation) imgid =
      redoneHistory db imgid ++ [flipRow imgid (nextNum (db.historyOf imgid)) orientation] := by
  rw [activeHistory, historyByNum_dtImageSetFlip, historyEnd_dtImageSetFlip _ _ _ _ himage,
    filter_append]
  congr 1
  · apply filter_congr
    intro row hrow
    have hmem : row ∈ db.historyOf imgid := (orderByNum_perm _ _).mem_iff.mp hrow
    cases hnum : row.num with
    | none => rfl
    | some n =>
      have hlt := lt_nextNum hmem hnum
      simp only [any_some, numBelow, isSome_some, decide_eq_true_eq]
      omega
  · simp [flipRow, numBelow]

/-- Turning an image keeps what every other operation is set to, and sets the orientation, exactly
if redoing all that was undone would change no other operation. -/
theorem dtImageSetFlip_frame_iff (himage : (db.images imgid).isSome) :
    ((∀ op, op ≠ "flip" →
        lastSetting op (activeHistory (dtImageSetFlip md5 db imgid orientation) imgid) =
          lastSetting op (activeHistory db imgid)) ∧
      ∃ row, lastSetting "flip"
          (activeHistory (dtImageSetFlip md5 db imgid orientation) imgid) = some row ∧
        row.opParams = some (intBytes orientation)) ↔
    ∀ op, op ≠ "flip" →
      lastSetting op (redoneHistory db imgid) = lastSetting op (activeHistory db imgid) := by
  rw [activeHistory_dtImageSetFlip _ _ _ _ himage]
  have hother : ∀ op, op ≠ "flip" →
      lastSetting op (redoneHistory db imgid ++
        [flipRow imgid (nextNum (db.historyOf imgid)) orientation]) =
      lastSetting op (redoneHistory db imgid) := by
    intro op hop
    apply lastSetting_concat_ne
    simpa [flipRow] using Ne.symm hop
  constructor
  · rintro ⟨hframe, -⟩ op hop
    rw [← hother op hop]
    exact hframe op hop
  · intro h
    constructor
    · intro op hop
      rw [hother op hop]
      exact h op hop
    · exact ⟨_, lastSetting_concat_self _ rfl, rfl⟩

end Flip

theorem dtImageSetFlip_frame_turned :
    (∀ op, op ≠ "flip" →
      lastSetting op (activeHistory (dtImageSetFlip (fun _ => [])
        (sampleDb 1 [sampleRow 0 "exposure", sampleRow 1 "flip"]) 1 5) 1) =
      lastSetting op (activeHistory
        (sampleDb 1 [sampleRow 0 "exposure", sampleRow 1 "flip"]) 1)) ∧
    ∃ row, lastSetting "flip" (activeHistory (dtImageSetFlip (fun _ => [])
        (sampleDb 1 [sampleRow 0 "exposure", sampleRow 1 "flip"]) 1 5) 1) = some row ∧
      row.opParams = some (intBytes 5) := by
  apply (dtImageSetFlip_frame_iff (fun _ => []) _ 1 5 rfl).mpr
  intro op hop
  apply lastSetting_redone_eq
  intro row hrow hrowop _
  rcases mem_cons.mp hrow with rfl | hrow
  · decide
  · rw [mem_singleton.mp hrow] at hrowop
    exact absurd (some.inj hrowop).symm hop

-- A step of the module colorin was undone, and turning the image brings it back.
theorem dtImageSetFlip_redoes_colorin :
    lastSetting "colorin" (activeHistory
        (sampleDb 1 [sampleRow 0 "exposure", sampleRow 1 "colorin"]) 1) = none ∧
      lastSetting "colorin" (activeHistory (dtImageSetFlip (fun _ => [])
        (sampleDb 1 [sampleRow 0 "exposure", sampleRow 1 "colorin"]) 1 5) 1) =
      some (sampleRow 1 "colorin").setting := by
  decide +kernel

end DTLite
