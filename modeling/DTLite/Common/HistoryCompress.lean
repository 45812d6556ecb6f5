import DTLite.Common.HistorySnapshot
import DTLite.Reasoning.Renumber
import Mathlib.Data.List.Dedup

/-!
# Compressing a history

Of each module only the last active row stays, the masks go to a row of the mask manager at the
front, and the rows that are left are numbered anew.
-/

namespace DTLite

open Reasoning Database List Option HistoryRow

def dtHistoryEndAttop (db : Database) (imgid : ImgId) : Int :=
  let size := columnInt (maxNum (db.historyOf imgid))
  let end' := columnInt (db.historyEnd imgid)
  if size = 0 ∧ end' = 0 then -1 else if size < end' then 1 else 0

def opMaskManager : String := "mask_manager"

variable {key : Option String × Option Int} (md5 : Blob → Blob) (imgid : ImgId)
  (rows : List HistoryRow) (row : HistoryRow)

-- What `GROUP BY operation, multi_priority` groups by.
def rowKey : Option String × Option Int := (row.operation, row.multiPriority)

variable (historyEnd : Int)

-- `SELECT MAX(num) … AND num < ?2 GROUP BY operation, multi_priority`.
def lastNums : List (Option Int) :=
  let active := rows.filter fun row => numBelow row.num historyEnd
  (active.map rowKey).dedup.map fun key => maxNum (active.filter fun row => rowKey row = key)

-- "whether there is a mask manager at slot 0 in history".
def managerPosition : Bool :=
  (rows.countP fun row => row.operation == some opMaskManager && row.num == some 0) == 1

-- "compress history".
def deleteSuperseded (db : Database) : Database :=
  let nums := lastNums (db.historyOf imgid) historyEnd
  db.deleteHistoryWhere imgid fun row => numNotIn row.num nums

-- "delete all mask_manager entries".
def deleteMaskManager (db : Database) : Database :=
  db.deleteHistoryWhere imgid fun row => row.operation == some opMaskManager

-- "compress masks history".
def compressMasks (db : Database) : Database :=
  let max := (((db.masksOf imgid).filter fun row => numBelow row.num historyEnd).filterMap
    MasksRow.num).max?
  db.deleteMasksWhere imgid fun row => numNotIn row.num [max]

-- "create a mask manager entry in history as first entry".
def managerRow : HistoryRow where
  imgid := imgid
  num := some 0
  module := some 1
  operation := some opMaskManager
  opParams := none
  enabled := some 0
  blendopParams := none
  blendopVersion := some 0
  multiPriority := some 0
  multiName := some ""

-- The masks go to the mask manager at slot 0, which gets room if it did not have that slot.
def ownMasks (managerPosition : Bool) (db : Database) : Database :=
  let db := db.updateMasks imgid fun row => { row with num := some 0 }
  let db :=
    if managerPosition then db
    else
      (db.shiftHistory imgid 1).updateImage imgid fun image =>
        { image with historyEnd := image.historyEnd.map (· + 1) }
  db.insertHistory [managerRow imgid]

-- The statements between BEGIN and COMMIT that change the history.
def compressTables (db : Database) : Database :=
  let position := managerPosition (db.historyOf imgid)
  let db := deleteSuperseded imgid historyEnd db
  let db := deleteMaskManager imgid db
  let db := compressMasks imgid historyEnd db
  if db.masksOf imgid = [] then db else ownMasks imgid position db

def dtHistoryCompressOnImage (c : Conn Database) (imgid : ImgId) : Conn Database :=
  let myHistoryEnd := columnInt (c.data.historyEnd imgid)
  if myHistoryEnd = 0 then dtHistoryDeleteOnImageExt md5 {} c imgid true
  else
    let c := c.exec "BEGIN" true
    let c := c.run (compressTables imgid myHistoryEnd)
    let c := c.run (dtHistoryHashWriteFromHistory md5 · imgid { current := true })
    c.exec "COMMIT" true

def HistoryRow.withNum (num : Option Int) : HistoryRow := { row with num := num }

-- `UPDATE main.history SET num = ?3 WHERE imgid = ?1 AND num = ?2`.
def setNum (index done : Nat) (db : Database) : Database :=
  db.updateHistory imgid fun row =>
    row.withNum (if row.num = some (index : Int) then some (done : Int) else row.num)

-- "step by step set the correct num".
def renumberStep (s : Database × Nat) (index : Nat) : Database × Nat :=
  if (s.1.historyOf imgid).any fun row => row.num == some (index : Int) then
    (setNum imgid index s.2 s.1, s.2 + 1)
  else s

def renumberLoop (k : Nat) (db : Database) : Database × Nat :=
  (List.range k).foldl (renumberStep imgid) (db, 0)

-- "now the modules are in right order but need renumbering to remove leaks".
def renumberHistory (db : Database) : Database :=
  let max := columnInt (maxNum (db.historyOf imgid))
  let size := (db.historyOf imgid).length
  let s := if 0 < size ∧ 0 < max then renumberLoop imgid (max.toNat + 1) db else (db, 0)
  s.1.setHistoryEnd imgid (some s.2)

/-- One image of the list. Only an image with `history_end` at the top is compressed; `s.2` counts
the others that have a history. -/
def compressListed (s : Conn Database × Nat) (imgid : ImgId) : Conn Database × Nat :=
  let test := dtHistoryEndAttop s.1.data imgid
  let c :=
    if test = 1 then (dtHistoryCompressOnImage md5 s.1 imgid).run (renumberHistory imgid)
    else s.1
  (c.run (dtHistoryHashWriteFromHistory md5 · imgid { current := true }),
    if test = 0 then s.2 + 1 else s.2)

def dtHistoryCompressOnList (c : Conn Database) (imgs : List ImgId) : Conn Database × Nat :=
  imgs.foldl (compressListed md5) (c, 0)

/-! ## The renumbering -/

section Renumber

variable (imgid : ImgId) (db : Database)

def numsOf : List (Option Int) := rows.map HistoryRow.num

theorem renumberLoop_succ (k : Nat) :
    renumberLoop imgid (k + 1) db = renumberStep imgid (renumberLoop imgid k db) k := by
  rw [renumberLoop, range_succ, foldl_append]
  rfl

theorem historyOf_setNum (index done : Nat) :
    (setNum imgid index done db).historyOf imgid = (db.historyOf imgid).map fun row =>
      row.withNum (if row.num = some (index : Int) then some (done : Int) else row.num) :=
  historyOf_updateHistory db imgid (f := fun row =>
    row.withNum (if row.num = some (index : Int) then some (done : Int) else row.num)) fun _ => rfl

theorem renumberLoop_history (k : Nat) :
    (renumberLoop imgid k db).1.historyOf imgid =
        (db.historyOf imgid).map
          (fun row => row.withNum (closeGaps (numsOf (db.historyOf imgid)) k row.num)) ∧
      (renumberLoop imgid k db).2 = rank (numsOf (db.historyOf imgid)) k := by
  set nums := numsOf (db.historyOf imgid) with hnums
  induction k with
  | zero =>
    refine ⟨?_, rfl⟩
    have hid : ∀ row ∈ db.historyOf imgid, row.withNum (closeGaps nums 0 row.num) = row := by
      intro row _
      rw [closeGaps_zero]
      rfl
    exact ((map_congr_left hid).trans (map_id _)).symm
  | succ k ih =>
    rw [renumberLoop_succ]
    obtain ⟨ihHistory, ihCount⟩ := ih
    set s := renumberLoop imgid k db with hs
    -- a number that was given out before is below `k`
    have hany : ((s.1.historyOf imgid).any fun row => row.num == some (k : Int)) =
        nums.contains (some (k : Int)) := by
      rw [Bool.eq_iff_iff, List.any_eq_true, contains_iff_mem, ihHistory, hnums, numsOf]
      simp only [List.mem_map, beq_iff_eq]
      constructor
      · rintro ⟨_, ⟨row, hrow, rfl⟩, hnum⟩
        exact ⟨row, hrow, (closeGaps_eq_some_iff nums k row.num).mp hnum⟩
      · rintro ⟨row, hrow, hnum⟩
        exact ⟨_, ⟨row, hrow, rfl⟩, (closeGaps_eq_some_iff nums k row.num).mpr hnum⟩
    by_cases hk : nums.contains (some (k : Int)) = true
    · have hstep : renumberStep imgid s k = (setNum imgid k s.2 s.1, s.2 + 1) :=
        if_pos (hany.trans hk)
      rw [hstep, rank_succ, if_pos hk, ← ihCount]
      refine ⟨?_, rfl⟩
      rw [historyOf_setNum, ihHistory, List.map_map]
      refine map_congr_left fun row _ => ?_
      rw [closeGaps_succ, ← ihCount]
      rfl
    · have hstep : renumberStep imgid s k = s := if_neg (by rw [hany]; exact hk)
      rw [hstep, rank_succ, if_neg hk, ihHistory]
      refine ⟨map_congr_left fun row hrow => ?_, ihCount⟩
      have hne : closeGaps nums k row.num ≠ some (k : Int) := by
        rw [ne_eq, closeGaps_eq_some_iff]
        exact fun hnum => hk (contains_iff_mem.mpr (hnum ▸ mem_map_of_mem hrow))
      rw [closeGaps_succ, if_neg hne]

theorem renumberLoop_eq (l : List Nat) (s : Database × Nat) :
    ∃ history, (l.foldl (renumberStep imgid) s).1 = { s.1 with history := history } := by
  induction l generalizing s with
  | nil => exact ⟨s.1.history, rfl⟩
  | cons index l ih =>
    obtain ⟨history, hfold⟩ := ih (renumberStep imgid s index)
    have hstep : ∃ history, (renumberStep imgid s index).1 = { s.1 with history := history } := by
      unfold renumberStep
      split
      · exact ⟨_, rfl⟩
      · exact ⟨s.1.history, rfl⟩
    obtain ⟨history', hstep⟩ := hstep
    exact ⟨history, by rw [foldl_cons, hfold, hstep]⟩

theorem le_maxNum {rows : List HistoryRow} {n : Int} (h : some n ∈ numsOf rows) :
    n ≤ columnInt (maxNum rows) := by
  have hmem : n ∈ rows.filterMap num := by
    obtain ⟨row, hrow, hnum⟩ := mem_map.mp h
    exact mem_filterMap.mpr ⟨row, hrow, hnum⟩
  cases hmax : maxNum rows with
  | none =>
    rw [maxNum, max?_eq_none_iff] at hmax
    rw [hmax] at hmem
    cases hmem
  | some m => exact (max?_eq_some_iff.mp hmax).2 n hmem

theorem maxNum_pos_iff {rows : List HistoryRow} :
    0 < columnInt (maxNum rows) ↔ ∃ n, some n ∈ numsOf rows ∧ 0 < n := by
  constructor
  · intro hpos
    cases hmax : maxNum rows with
    | none =>
      rw [hmax] at hpos
      cases hpos
    | some m =>
      rw [hmax] at hpos
      obtain ⟨row, hrow, hnum⟩ := mem_filterMap.mp (max?_eq_some_iff.mp hmax).1
      exact ⟨m, mem_map.mpr ⟨row, hrow, hnum⟩, hpos⟩
  · rintro ⟨n, hmem, hpos⟩
    exact lt_of_lt_of_le hpos (le_maxNum hmem)

def renumberedRows : List HistoryRow :=
  if 0 < columnInt (maxNum rows) then
    rows.map fun row =>
      row.withNum (closeGaps (numsOf rows) ((columnInt (maxNum rows)).toNat + 1) row.num)
  else rows

def renumberedCount : Nat :=
  if 0 < columnInt (maxNum rows) then
    rank (numsOf rows) ((columnInt (maxNum rows)).toNat + 1)
  else 0

theorem renumberHistory_spec :
    (renumberHistory imgid db).historyOf imgid = renumberedRows (db.historyOf imgid) ∧
      (renumberHistory imgid db).historyEnd imgid =
        (db.images imgid).map fun _ => (renumberedCount (db.historyOf imgid) : Int) := by
  have hend : ∀ (db' : Database) (n : Nat), (∃ history, db' = { db with history := history }) →
      (db'.setHistoryEnd imgid (some (n : Int))).historyEnd imgid =
        (db.images imgid).map fun _ => (n : Int) := by
    rintro _ n ⟨history, rfl⟩
    show (Function.update db.images imgid _ imgid).bind ImageRow.historyEnd = _
    rw [Function.update_self]
    cases db.images imgid <;> rfl
  rw [renumberHistory, renumberedRows, renumberedCount]
  by_cases hpos : 0 < columnInt (maxNum (db.historyOf imgid))
  · have hsize : 0 < (db.historyOf imgid).length := by
      obtain ⟨n, hmem, -⟩ := maxNum_pos_iff.mp hpos
      exact length_pos_of_mem (mem_map.mp hmem).choose_spec.1
    rw [if_pos ⟨hsize, hpos⟩, if_pos hpos, if_pos hpos]
    obtain ⟨hhistory, hcount⟩ :=
      renumberLoop_history imgid db ((columnInt (maxNum (db.historyOf imgid))).toNat + 1)
    refine ⟨hhistory, ?_⟩
    rw [hcount]
    exact hend _ _ (renumberLoop_eq imgid _ (db, 0))
  · rw [if_neg fun h => hpos h.2, if_neg hpos, if_neg hpos]
    exact ⟨rfl, hend db 0 ⟨db.history, rfl⟩⟩

end Renumber

def keptRows : List HistoryRow :=
  rows.filter fun row =>
    !numNotIn row.num (lastNums rows historyEnd) && row.operation != some opMaskManager

def shiftRow (cnt : Int) (row : HistoryRow) : HistoryRow := row.withNum (row.num.map (· + cnt))

def compressedRows (hasMasks : Bool) (rows : List HistoryRow) (historyEnd : Int) :
    List HistoryRow :=
  if hasMasks then
    (keptRows rows historyEnd).map (shiftRow (if managerPosition rows then 0 else 1))
      ++ [managerRow imgid]
  else keptRows rows historyEnd

theorem map_shiftRow_zero : rows.map (shiftRow 0) = rows := by
  have hid : ∀ row ∈ rows, shiftRow 0 row = row := by
    intro row _
    rw [shiftRow, show row.num.map (· + 0) = row.num by cases row.num <;> simp]
    rfl
  exact (map_congr_left hid).trans (map_id _)

section CompressTables

variable (imgid : ImgId) (historyEnd : Int) (db : Database)

theorem compressMasks_eq_nil_iff :
    (compressMasks imgid historyEnd db).masksOf imgid = [] ↔ db.masksOf imgid = [] := by
  rw [compressMasks, masksOf_deleteMasksWhere]
  refine ⟨fun h => ?_, fun h => by rw [h]; rfl⟩
  by_contra hne
  cases hmax : (((db.masksOf imgid).filter fun row => numBelow row.num historyEnd).filterMap
      MasksRow.num).max? with
  | none =>
    -- `num NOT IN (NULL)` is true of no row
    rw [hmax, filter_eq_self.mpr fun row _ => by simp [numNotIn]] at h
    exact hne h
  | some m =>
    obtain ⟨row, hrow, hnum⟩ := mem_filterMap.mp (max?_eq_some_iff.mp hmax).1
    rw [hmax, filter_eq_nil_iff] at h
    exact h row (mem_filter.mp hrow).1 (by simp [numNotIn, hnum])

theorem historyOf_deleted :
    (deleteMaskManager imgid (deleteSuperseded imgid historyEnd db)).historyOf imgid =
      keptRows (db.historyOf imgid) historyEnd := by
  rw [deleteMaskManager, historyOf_deleteHistoryWhere, deleteSuperseded,
    historyOf_deleteHistoryWhere, List.filter_filter]
  refine filter_congr fun row _ => ?_
  rw [Bool.and_comm]
  rfl

theorem historyOf_ownMasks (position : Bool) :
    (ownMasks imgid position db).historyOf imgid =
      (db.historyOf imgid).map (shiftRow (if position then 0 else 1)) ++ [managerRow imgid] := by
  rw [ownMasks, historyOf_insertHistory _ _ (by simp [managerRow])]
  congr 1
  cases position with
  | true => exact (map_shiftRow_zero _).symm
  | false => exact historyOf_updateHistory _ imgid (f := shiftRow 1) fun _ => rfl

theorem historyOf_compressTables :
    (compressTables imgid historyEnd db).historyOf imgid =
      compressedRows imgid (db.masksOf imgid ≠ []) (db.historyOf imgid) historyEnd := by
  rw [compressTables, compressedRows]
  have hmasks : (compressMasks imgid historyEnd (deleteMaskManager imgid
      (deleteSuperseded imgid historyEnd db))).masksOf imgid = [] ↔ db.masksOf imgid = [] :=
    compressMasks_eq_nil_iff imgid historyEnd _
  have hhistory : (compressMasks imgid historyEnd (deleteMaskManager imgid
      (deleteSuperseded imgid historyEnd db))).historyOf imgid =
      keptRows (db.historyOf imgid) historyEnd := historyOf_deleted imgid historyEnd db
  by_cases hnil : db.masksOf imgid = []
  · rw [if_pos (hmasks.mpr hnil), if_neg (by simp [hnil]), hhistory]
  · rw [if_neg (mt hmasks.mp hnil), if_pos (by simp [hnil]), historyOf_ownMasks, hhistory]

theorem compressTables_images :
    ((compressTables imgid historyEnd db).images imgid).isSome = (db.images imgid).isSome := by
  rw [compressTables]
  split
  · rfl
  · cases managerPosition (db.historyOf imgid) with
    | true => rfl
    | false =>
      show (Function.update db.images imgid _ imgid).isSome = _
      rw [Function.update_self, isSome_map]
      rfl

end CompressTables

def rowSettings : Option Blob × Option Blob × Option Int :=
  (row.opParams, row.blendopParams, row.enabled)

def lastRow (key : Option String × Option Int) : Option HistoryRow :=
  ((orderByNum HistoryRow.num rows).filter fun row =>
    numBelow row.num historyEnd && rowKey row == key).getLast?

theorem lastRow_eq_some {rows : List HistoryRow} {historyEnd : Int} {r : HistoryRow} {m : Int}
    (hr : r ∈ rows) (hkey : rowKey r = key) (hnum : r.num = some m) (hm : m < historyEnd)
    (hmax : ∀ row ∈ rows, rowKey row = key → ∀ k, row.num = some k → row = r ∨ k < m) :
    lastRow rows historyEnd key = some r := by
  set active := (orderByNum num rows).filter fun row =>
    numBelow row.num historyEnd && rowKey row == key with hactive
  have hsorted : active.Pairwise fun a b => numLe a.num b.num :=
    (orderByNum_sorted num rows).filter _
  have hmem : r ∈ active := by
    rw [mem_filter, (orderByNum_perm num rows).mem_iff]
    exact ⟨hr, by simp [numBelow, hnum, hm, hkey]⟩
  show active.getLast? = some r
  rw [getLast?_eq_some_getLast (ne_nil_of_mem hmem)]
  set last := active.getLast (ne_nil_of_mem hmem) with hlast
  have hlastMem : last ∈ active := getLast_mem _
  rw [hactive, mem_filter, (orderByNum_perm num rows).mem_iff] at hlastMem
  obtain ⟨hrow, hp⟩ := hlastMem
  simp only [Bool.and_eq_true, beq_iff_eq] at hp
  obtain ⟨k, hk⟩ : ∃ k, last.num = some k := by
    cases hcase : last.num with
    | none => simp [numBelow, hcase] at hp
    | some k => exact ⟨k, rfl⟩
  rcases hmax last hrow hp.2 k hk with heq | hlt
  · rw [heq]
  · -- the last one of a sorted list is not below another
    have hle : numLe r.num last.num :=
      hsorted.rel_getLast_of_rel_getLast_getLast hmem ((numLe_total _ _).elim id id)
    rw [hnum, hk] at hle
    exact absurd hle (not_le.mpr hlt)

theorem lastRow_eq_none_iff {rows : List HistoryRow} {historyEnd : Int} :
    lastRow rows historyEnd key = none ↔
      ∀ row ∈ rows, rowKey row = key → numBelow row.num historyEnd = false := by
  rw [lastRow, getLast?_eq_none_iff, filter_eq_nil_iff]
  refine forall_congr' fun row => ?_
  rw [(orderByNum_perm num rows).mem_iff]
  refine imp_congr_right fun _ => ?_
  rw [Bool.and_eq_true, beq_iff_eq, not_and', Bool.not_eq_true]

/-! ## What is left, in terms of the table before -/

def IsLast : Prop :=
  row.num.isSome ∧ ∀ other ∈ rows, rowKey other = rowKey row → numLe other.num row.num

instance decidableIsLast (rows : List HistoryRow) (row : HistoryRow) :
    Decidable (IsLast rows row) :=
  inferInstanceAs (Decidable (_ ∧ ∀ other ∈ rows, _ → _))

-- `num NOT IN (…)` compares numbers only: a row stays with the number of the last row of any
-- module, and without a number.
def Stays : Prop :=
  row.operation ≠ some opMaskManager ∧
    ∃ last ∈ rows, IsLast rows last ∧ (row.num = last.num ∨ row.num = none)

instance decidableStays (rows : List HistoryRow) (row : HistoryRow) :
    Decidable (Stays rows row) :=
  inferInstanceAs (Decidable (_ ∧ ∃ last ∈ rows, _))

section Kept

variable {rows : List HistoryRow} {historyEnd : Int}

theorem mem_activeRows (hbelow : ∀ n, some n ∈ numsOf rows → n < historyEnd) {row : HistoryRow} :
    (row ∈ rows.filter fun row => numBelow row.num historyEnd) ↔ row ∈ rows ∧ row.num.isSome := by
  rw [mem_filter]
  refine and_congr_right fun hrow => ?_
  cases hnum : row.num with
  | none => simp [numBelow]
  | some n =>
    have hlt : n < historyEnd := hbelow n (hnum ▸ mem_map_of_mem hrow)
    simp [numBelow, hlt]

theorem maxNum_eq_some_iff {n : Int} :
    maxNum (rows.filter fun row => rowKey row = key) = some n ↔
      ∃ last ∈ rows, rowKey last = key ∧ IsLast rows last ∧ last.num = some n := by
  have hgroup : ∀ k, k ∈ (rows.filter fun row => rowKey row = key).filterMap num ↔
      ∃ row ∈ rows, rowKey row = key ∧ row.num = some k := by
    intro k
    simp only [mem_filterMap, mem_filter, decide_eq_true_iff, and_assoc]
  rw [maxNum, max?_eq_some_iff, hgroup]
  constructor
  · rintro ⟨⟨last, hlast, hkey, hnum⟩, hmax⟩
    refine ⟨last, hlast, hkey, ⟨by rw [hnum]; rfl, fun other hother hsame => ?_⟩, hnum⟩
    rw [hnum]
    cases hk : other.num with
    | none => trivial
    | some k => exact hmax k ((hgroup k).mpr ⟨other, hother, hsame.trans hkey, hk⟩)
  · rintro ⟨last, hlast, hkey, ⟨-, hle⟩, hnum⟩
    refine ⟨⟨last, hlast, hkey, hnum⟩, fun k hk => ?_⟩
    obtain ⟨other, hother, hsame, hk⟩ := (hgroup k).mp hk
    have hnumLe := hle other hother (hsame.trans hkey.symm)
    rw [hk, hnum] at hnumLe
    exact hnumLe

theorem exists_isLast {row : HistoryRow} (hrow : row ∈ rows) (hnum : row.num.isSome) :
    ∃ last ∈ rows, rowKey last = rowKey row ∧ IsLast rows last := by
  cases hmax : maxNum (rows.filter fun row' => rowKey row' = rowKey row) with
  | none =>
    rw [maxNum, max?_eq_none_iff, filterMap_eq_nil_iff] at hmax
    have hnone := hmax row (mem_filter.mpr ⟨hrow, decide_eq_true rfl⟩)
    exact absurd hnone (isSome_iff_ne_none.mp hnum)
  | some n =>
    obtain ⟨last, hlast, hkey, hisLast, -⟩ := maxNum_eq_some_iff.mp hmax
    exact ⟨last, hlast, hkey, hisLast⟩

section

variable (hbelow : ∀ n, some n ∈ numsOf rows → n < historyEnd)
include hbelow

theorem mem_lastNums_iff (num : Option Int) :
    num ∈ lastNums rows historyEnd ↔ ∃ last ∈ rows, IsLast rows last ∧ last.num = num := by
  have hactive : ∀ key, maxNum ((rows.filter fun row => numBelow row.num historyEnd).filter
      fun row => rowKey row = key) = maxNum (rows.filter fun row => rowKey row = key) := by
    intro key
    rw [maxNum, maxNum, List.filter_filter, filterMap_filter, filterMap_filter]
    congr 1
    refine filterMap_congr fun row hrow => ?_
    cases hnum : row.num with
    | none => simp
    | some n =>
      have hlt : n < historyEnd := hbelow n (hnum ▸ List.mem_map_of_mem hrow)
      simp [numBelow, hlt]
  simp only [lastNums, List.mem_map, mem_dedup, hactive]
  constructor
  · rintro ⟨_, ⟨row, hrow, rfl⟩, hmax⟩
    obtain ⟨hmem, hsome⟩ := (mem_activeRows hbelow).mp hrow
    obtain ⟨last, hlast, hkey, hisLast⟩ := exists_isLast hmem hsome
    obtain ⟨n, hn⟩ := isSome_iff_exists.mp hisLast.1
    rw [maxNum_eq_some_iff.mpr ⟨last, hlast, hkey, hisLast, hn⟩] at hmax
    exact ⟨last, hlast, hisLast, hn.trans hmax⟩
  · rintro ⟨last, hlast, hisLast, rfl⟩
    obtain ⟨n, hn⟩ := isSome_iff_exists.mp hisLast.1
    refine ⟨rowKey last, ⟨last, (mem_activeRows hbelow).mpr ⟨hlast, hisLast.1⟩, rfl⟩, ?_⟩
    rw [hn]
    exact maxNum_eq_some_iff.mpr ⟨last, hlast, rfl, hisLast, hn⟩

theorem keptRows_eq : keptRows rows historyEnd = rows.filter fun row => Stays rows row := by
  have hlast := mem_lastNums_iff hbelow
  have hnone : none ∉ lastNums rows historyEnd := by
    intro hmem
    obtain ⟨last, -, ⟨hsome, -⟩, hnum⟩ := (hlast none).mp hmem
    rw [hnum] at hsome
    cases hsome
  refine filter_congr fun row _ => ?_
  rw [Bool.eq_iff_iff, Bool.and_eq_true, bne_iff_ne, decide_eq_true_iff, and_comm]
  refine and_congr_right fun _ => ?_
  cases hnum : row.num with
  | none =>
    have hkeeps : (!numNotIn none (lastNums rows historyEnd)) = true ↔
        lastNums rows historyEnd ≠ [] := by
      simp [numNotIn]
    rw [hkeeps]
    constructor
    · intro hne
      obtain ⟨num, hmem⟩ := exists_mem_of_ne_nil _ hne
      obtain ⟨last, hrow, hisLast, -⟩ := (hlast num).mp hmem
      exact ⟨last, hrow, hisLast, Or.inr rfl⟩
    · rintro ⟨last, hrow, hisLast, -⟩
      exact ne_nil_of_mem ((hlast _).mpr ⟨last, hrow, hisLast, rfl⟩)
  | some n =>
    have hkeeps : (!numNotIn (some n) (lastNums rows historyEnd)) = true ↔
        some n ∈ lastNums rows historyEnd := by
      cases hnums : lastNums rows historyEnd with
      | nil => simp [numNotIn]
      | cons num nums =>
        rw [hnums] at hnone
        simp [numNotIn, hnone] 
    rw [hkeeps, hlast]
    constructor
    · rintro ⟨last, hrow, hisLast, heq⟩
      exact ⟨last, hrow, hisLast, Or.inl heq.symm⟩
    · rintro ⟨last, hrow, hisLast, heq | heq⟩
      · exact ⟨last, hrow, hisLast, heq.symm⟩
      · cases heq

end

end Kept

/-! ## The renumbered rows -/

def Renumbers : Prop :=
  rows = [] ∨ (Numbered (numsOf rows) ∧ 0 < columnInt (maxNum rows))

theorem numsOf_append (rows' : List HistoryRow) :
    numsOf (rows ++ rows') = numsOf rows ++ numsOf rows' :=
  map_append

theorem numsOf_shiftRow (cnt : Int) (rows : List HistoryRow) :
    numsOf (rows.map (shiftRow cnt)) = (numsOf rows).map (Option.map (· + cnt)) := by
  rw [numsOf, numsOf, List.map_map, List.map_map]
  rfl

theorem lt_bound {rows : List HistoryRow} {n : Int} (h : some n ∈ numsOf rows) :
    n < ((columnInt (maxNum rows)).toNat + 1 : Nat) := by
  have hle := le_maxNum h
  omega

theorem renumbers_iff :
    ((numsOf (renumberedRows rows)).Perm
          ((range (renumberedRows rows).length).map fun i : Nat => some (i : Int)) ∧
        (renumberedCount rows : Int) = (renumberedRows rows).length) ↔
      Renumbers rows := by
  rw [renumberedRows, renumberedCount]
  by_cases hpos : 0 < columnInt (maxNum rows)
  · have hnums : numsOf (rows.map fun row => row.withNum
        (closeGaps (numsOf rows) ((columnInt (maxNum rows)).toNat + 1) row.num)) =
        (numsOf rows).map (closeGaps (numsOf rows) ((columnInt (maxNum rows)).toNat + 1)) := by
      rw [numsOf, numsOf, List.map_map, List.map_map]
      rfl
    have hlength : rows.length = (numsOf rows).length := (length_map _).symm
    rw [if_pos hpos, if_pos hpos, hnums, length_map, hlength,
      closeGaps_perm_iff fun n => lt_bound]
    constructor
    · exact fun h => Or.inr ⟨h.1, hpos⟩
    · rintro (rfl | ⟨h, -⟩)
      · cases hpos
      · exact ⟨h, by rw [h.rank_eq_length fun n => lt_bound]⟩
  · rw [if_neg hpos, if_neg hpos]
    constructor
    · exact fun h => Or.inl (length_eq_zero_iff.mp (by omega))
    · rintro (rfl | h)
      · exact ⟨Perm.refl _, rfl⟩
      · exact absurd h.2 hpos

def lastSettings (key : Option String × Option Int) :
    Option (Option Blob × Option Blob × Option Int) :=
  (lastRow rows historyEnd key).map rowSettings

section LastSettings

variable {rows : List HistoryRow} {historyEnd : Int}

theorem numLe_map_add (cnt : Int) {a b : Option Int} (h : numLe a b) :
    numLe (a.map (· + cnt)) (b.map (· + cnt)) := by
  cases a with
  | none => trivial
  | some a =>
    cases b with
    | none => exact h
    | some b => exact Int.add_le_add_right h cnt

variable {cnt : Int} {managers : List HistoryRow} {last : HistoryRow}
  {key : Option String × Option Int}

theorem lastSettings_isLast (hnumbered : Numbered (numsOf rows))
    (hpos : 0 < columnInt (maxNum rows)) (hlast : last ∈ rows) (hisLast : IsLast rows last) :
    lastSettings (renumberedRows rows) (renumberedCount rows) (rowKey last) =
      some (rowSettings last) := by
  have hnat : ∀ row ∈ rows, ∃ i : Nat, row.num = some (i : Int) :=
    fun row hrow => hnumbered.natural _ (mem_map_of_mem hrow)
  set bound := (columnInt (maxNum rows)).toNat + 1 with hbound
  have hgaps : ∀ row ∈ rows, ∀ i : Nat, row.num = some (i : Int) → i < bound ∧
      closeGaps (numsOf rows) bound row.num = some (rank (numsOf rows) i : Int) := by
    intro row hrow i hi
    have hlt : (i : Int) < bound := lt_bound (hi ▸ mem_map_of_mem hrow)
    rw [hi]
    exact ⟨by omega, congrArg some (if_pos ⟨by omega, hlt⟩)⟩
  obtain ⟨m, hm⟩ := hnat last hlast
  obtain ⟨hmBound, hmGaps⟩ := hgaps last hlast m hm
  have hrows : renumberedRows rows =
      rows.map fun row => row.withNum (closeGaps (numsOf rows) bound row.num) := if_pos hpos
  have hcount : renumberedCount rows = rank (numsOf rows) bound := if_pos hpos
  have hfound : lastRow (renumberedRows rows) (renumberedCount rows) (rowKey last) =
      some (last.withNum (closeGaps (numsOf rows) bound last.num)) := by
    rw [hrows]
    apply lastRow_eq_some (mem_map_of_mem hlast) rfl hmGaps
    · have hlt := rank_lt (numsOf rows) hmBound (hm ▸ mem_map_of_mem hlast)
      omega
    · intro row hrow hkey k hk
      obtain ⟨other, hother, rfl⟩ := mem_map.mp hrow
      obtain ⟨i, hi⟩ := hnat other hother
      have hle : numLe other.num last.num := hisLast.2 other hother hkey
      rw [hi, hm] at hle
      rcases (Int.ofNat_le.mp hle).eq_or_lt with rfl | hlt
      · left
        rw [inj_on_of_nodup_map hnumbered.nodup hother hlast (hi.trans hm.symm)]
      · right
        have hrank := rank_lt (numsOf rows) hlt (hi ▸ mem_map_of_mem hother)
        have hk' := some.inj (hk.symm.trans (hgaps other hother i hi).2)
        omega
  rw [lastSettings, hfound]
  rfl

theorem lastRow_of_isLast (hlast : last ∈ rows) (hisLast : IsLast rows last)
    (hbelow : ∀ n, some n ∈ numsOf rows → n < historyEnd)
    (hunique : ∀ other ∈ rows, rowKey other = rowKey last → other.num = last.num → other = last) :
    lastRow rows historyEnd (rowKey last) = some last := by
  obtain ⟨m, hm⟩ := isSome_iff_exists.mp hisLast.1
  apply lastRow_eq_some hlast rfl hm (hbelow m (hm ▸ mem_map_of_mem hlast))
  intro other hother hkey k hk
  have hle := hisLast.2 other hother hkey
  rw [hk, hm] at hle
  rcases hle.eq_or_lt with rfl | hlt
  · exact Or.inl (hunique other hother hkey (hk.trans hm.symm))
  · exact Or.inr hlt

section

variable (h : ∀ row ∈ rows, rowKey row = key → row.num = none)
include h

theorem lastRow_of_no_num : lastRow rows historyEnd key = none := by
  rw [lastRow_eq_none_iff]
  intro row hrow hkey
  rw [h row hrow hkey]
  rfl

theorem no_num_renumberedRows : ∀ row ∈ renumberedRows rows, rowKey row = key → row.num = none := by
  intro row hrow hkey
  rw [renumberedRows] at hrow
  split at hrow
  · obtain ⟨before, hbefore, rfl⟩ := mem_map.mp hrow
    rw [h before hbefore hkey]
    rfl
  · exact h row hrow hkey

end

theorem origin_of_key (hmanagers : ∀ row ∈ managers, row.operation = some opMaskManager)
    (hkey : key.1 ≠ some opMaskManager) {row : HistoryRow}
    (hrow : row ∈ (rows.filter fun row => Stays rows row).map (shiftRow cnt) ++ managers)
    (hrowKey : rowKey row = key) : ∃ before ∈ rows, row = shiftRow cnt before := by
  rcases mem_append.mp hrow with hmem | hmem
  · obtain ⟨before, hbefore, rfl⟩ := mem_map.mp hmem
    exact ⟨before, (mem_filter.mp hbefore).1, rfl⟩
  · exact absurd ((congrArg Prod.fst hrowKey).symm.trans (hmanagers row hmem)) hkey

theorem isLast_shiftRow (hisLast : IsLast rows last) {after : List HistoryRow}
    (horigin : ∀ row ∈ after, rowKey row = rowKey last →
      ∃ before ∈ rows, row = shiftRow cnt before) : IsLast after (shiftRow cnt last) := by
  constructor
  · rw [shiftRow, withNum, isSome_map]
    exact hisLast.1
  · intro other hother hkey
    obtain ⟨before, hbefore, rfl⟩ := horigin other hother hkey
    exact numLe_map_add cnt (hisLast.2 before hbefore hkey)

theorem eq_of_stays (hnodup : (numsOf ((rows.filter fun row => Stays rows row).map (shiftRow cnt) ++
      managers)).Nodup) {row other : HistoryRow} (hrow : row ∈ rows) (hstays : Stays rows row)
    (hother : other ∈ rows) (hstays' : Stays rows other) (hnum : other.num = row.num) :
    other = row := by
  rw [numsOf_append] at hnodup
  replace hnodup := hnodup.of_append_left
  rw [numsOf, List.map_map] at hnodup
  apply inj_on_of_nodup_map hnodup
    (mem_filter.mpr ⟨hother, decide_eq_true hstays'⟩)
    (mem_filter.mpr ⟨hrow, decide_eq_true hstays⟩)
  show other.num.map _ = row.num.map _
  rw [hnum]

/-- The modules keep the settings of their last rows, whatever rows of the mask manager come in. -/
theorem lastSettings_renumbered (hbelow : ∀ n, some n ∈ numsOf rows → n < historyEnd)
    (hmanagers : ∀ row ∈ managers, row.operation = some opMaskManager)
    (hrenumbers : Renumbers ((rows.filter fun row ↦ Stays rows row).map (shiftRow cnt) ++ managers))
    (hkey : key.1 ≠ some opMaskManager) :
    let after := (rows.filter (Stays rows)).map (shiftRow cnt) ++ managers
    lastSettings (renumberedRows after) (renumberedCount after) key =
      lastSettings rows historyEnd key := by
  intro after
  by_cases hsome : ∃ row ∈ rows, rowKey row = key ∧ row.num.isSome
  · obtain ⟨row, hrow, rfl, hnum⟩ := hsome
    obtain ⟨last, hlast, hlastKey, hisLast⟩ := exists_isLast hrow hnum
    rw [← hlastKey] at hkey ⊢
    have hstays : ∀ other ∈ rows, rowKey other = rowKey last → other.num = last.num →
        Stays rows other := fun other _ hother heq =>
      ⟨fun hop => hkey ((congrArg Prod.fst hother).symm.trans hop),
        last, hlast, hisLast, Or.inl heq⟩
    have hlastStays := hstays last hlast rfl rfl
    have hmem : shiftRow cnt last ∈ after := mem_append_left _
      (mem_map_of_mem (mem_filter.mpr ⟨hlast, decide_eq_true hlastStays⟩))
    obtain ⟨hnumbered, hpos⟩ := hrenumbers.resolve_left (ne_nil_of_mem hmem)
    have hunique : ∀ other ∈ rows, rowKey other = rowKey last → other.num = last.num →
        other = last := fun other hother hother' heq =>
      eq_of_stays hnumbered.nodup hlast hlastStays hother (hstays other hother hother' heq) heq
    have hisLast' : IsLast after (shiftRow cnt last) :=
      isLast_shiftRow hisLast fun row => origin_of_key hmanagers hkey
    have hafter := lastSettings_isLast hnumbered hpos hmem hisLast'
    rw [lastSettings, lastSettings, lastRow_of_isLast hlast hisLast hbelow hunique]
    exact hafter
  · have hnone : ∀ row ∈ rows, rowKey row = key → row.num = none := by
      intro row hrow hrowKey
      by_contra hne
      exact hsome ⟨row, hrow, hrowKey, isSome_iff_ne_none.mpr hne⟩
    have hnone' : ∀ row ∈ after, rowKey row = key → row.num = none := by
      intro row hrow hrowKey
      obtain ⟨before, hbefore, rfl⟩ := origin_of_key hmanagers hkey hrow hrowKey
      show before.num.map _ = none
      rw [hnone before hbefore hrowKey]
      rfl
    rw [lastSettings, lastSettings, lastRow_of_no_num hnone,
      lastRow_of_no_num (no_num_renumberedRows hnone')]

end LastSettings

end DTLite
