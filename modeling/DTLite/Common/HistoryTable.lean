import DTLite.Develop.Basic
import DTLite.Reasoning.Table
import Mathlib.Data.List.Sort

/-!
# The history tables of the library

The rows of `main.history`, `main.masks_history`, `main.module_order` and `main.history_hash`, and
of the tables that keep snapshots of them for undo.  No column of these tables is `NOT NULL`, so a
column is an `Option`; a table without a key is the list of its rows in the order of their rowids.
-/

namespace DTLite

open Reasoning

abbrev ImgId := Nat

-- A text column that the code takes apart character by character.
abbrev Text := List Char

structure HistoryRow where
  imgid : ImgId
  num : Option Int
  module : Option Int
  operation : Option String
  opParams : Option Blob
  enabled : Option Int
  blendopParams : Option Blob
  blendopVersion : Option Int
  multiPriority : Option Int
  multiName : Option String
deriving DecidableEq, Repr

structure MasksRow where
  imgid : ImgId
  num : Option Int
  formid : Option Int
  form : Option Int
  name : Option String
  version : Option Int
  points : Option Blob
  pointsCount : Option Int
  source : Option Blob
deriving DecidableEq, Repr

-- A row of `main.module_order`, whose primary key is the image.
structure ModuleOrder where
  version : Option Int
  iopList : Option Text
deriving DecidableEq, Repr

-- A row of `main.history_hash`, whose primary key is the image.
structure HistoryHash where
  basicHash : Option Blob := none
  autoHash : Option Blob := none
  currentHash : Option Blob := none
  mipmapHash : Option Blob := none
deriving DecidableEq, Repr

-- The columns of `main.images` that belong to the history.
structure ImageRow where
  historyEnd : Option Int
  aspectRatio : Option Rat
  -- `flags & DT_IMAGE_AUTO_PRESETS_APPLIED`
  autoPresetsApplied : Bool
deriving DecidableEq, Repr

structure UndoRow (α : Type) where
  id : Int
  row : α
deriving DecidableEq, Repr

structure UndoModuleOrder where
  id : Int
  imgid : ImgId
  order : ModuleOrder
deriving DecidableEq, Repr

/-- The tables. Those with the image as primary key are functions of it. -/
structure Database where
  images : ImgId → Option ImageRow
  history : List HistoryRow
  masksHistory : List MasksRow
  moduleOrder : ImgId → Option ModuleOrder
  historyHash : ImgId → Option HistoryHash
  undoHistory : List (UndoRow HistoryRow)
  undoMasksHistory : List (UndoRow MasksRow)
  undoModuleOrder : List UndoModuleOrder

-- `sqlite3_column_int`, of columns whose numbers fit into an `int`.
def columnInt (column : Option Int) : Int := column.getD 0

-- `sqlite3_column_bytes`.
def columnBytes (column : Option Blob) : Nat := (column.getD []).length

-- `sqlite3_column_blob`: `NULL` also for a blob of no bytes.
def columnBlob (column : Option Blob) : Option Blob := column.filter (· ≠ [])

-- `num < ?`, not true of `NULL`.
def numBelow (num : Option Int) (bound : Int) : Bool := num.any (· < bound)

-- `num NOT IN (…)`: not true if `num` or one of the list is `NULL`, but true of an empty list.
def numNotIn (num : Option Int) (nums : List (Option Int)) : Bool :=
  nums.isEmpty || (num.isSome && !nums.contains none && !nums.contains num)

variable (db : Database) (rows : List HistoryRow)

-- `SELECT MAX(num)` over some rows.
def maxNum : Option Int := (rows.filterMap HistoryRow.num).max?

-- `SELECT IFNULL(MAX(num) + 1, 0)`.
def nextNum : Int :=
  (((rows.filterMap HistoryRow.num).max?).map (· + 1)).getD 0

/-! ## `ORDER BY num` -/

-- `NULL` comes first.
def numLe : Option Int → Option Int → Prop
  | none, _ => True
  | some _, none => False
  | some a, some b => a ≤ b

instance decidableNumLe : (a b : Option Int) → Decidable (numLe a b)
  | none, _ => isTrue trivial
  | some _, none => isFalse id
  | some a, some b => inferInstanceAs (Decidable (a ≤ b))

theorem numLe_total (a b : Option Int) : numLe a b ∨ numLe b a := by
  cases a with
  | none => exact .inl trivial
  | some a =>
    cases b with
    | none => exact .inr trivial
    | some b => exact le_total a b

theorem numLe_trans {a b c : Option Int} (hab : numLe a b) (hbc : numLe b c) : numLe a c := by
  cases a with
  | none => trivial
  | some a =>
    cases b with
    | none => exact hab.elim
    | some b =>
      cases c with
      | none => exact hbc.elim
      | some c => exact le_trans hab hbc

variable {α : Type} (num : α → Option Int)

-- `ORDER BY num`; rows of one number stay in the order of their rowids.
def orderByNum (rows : List α) : List α :=
  rows.insertionSort fun a b => numLe (num a) (num b)

theorem orderByNum_perm (rows : List α) : (orderByNum num rows).Perm rows :=
  List.perm_insertionSort ..

theorem orderByNum_sorted (rows : List α) :
    (orderByNum num rows).Pairwise fun a b => numLe (num a) (num b) := by
  have : Std.Total fun a b => numLe (num a) (num b) := ⟨fun a b => numLe_total (num a) (num b)⟩
  have : IsTrans α fun a b => numLe (num a) (num b) := ⟨fun _ _ _ => numLe_trans⟩
  exact List.pairwise_insertionSort ..

theorem orderByNum_of_sorted {num : α → Option Int} {rows : List α}
    (h : rows.Pairwise fun a b => numLe (num a) (num b)) : orderByNum num rows = rows :=
  h.insertionSort_eq

variable (imgid : ImgId)

namespace Database

-- `SELECT … FROM main.history WHERE imgid = ?`, in the order of the rowids.
def historyOf : List HistoryRow :=
  db.history.filter fun row => row.imgid = imgid

-- `SELECT … FROM main.masks_history WHERE imgid = ?`.
def masksOf : List MasksRow :=
  db.masksHistory.filter fun row => row.imgid = imgid

-- `SELECT … FROM main.history WHERE imgid = ? ORDER BY num`.
def historyByNum : List HistoryRow :=
  orderByNum HistoryRow.num (db.historyOf imgid)

-- `SELECT … FROM main.masks_history WHERE imgid = ? ORDER BY num`.
def masksByNum : List MasksRow :=
  orderByNum MasksRow.num (db.masksOf imgid)

-- `SELECT history_end FROM main.images WHERE id = ?`, `none` for `NULL` and for no row.
def historyEnd (imgid : ImgId) : Option Int :=
  (db.images imgid).bind ImageRow.historyEnd

-- `UPDATE main.images SET … WHERE id = ?`: nothing happens if the image has no row.
def updateImage (f : ImageRow → ImageRow) : Database :=
  { db with images := Function.update db.images imgid ((db.images imgid).map f) }

-- `UPDATE main.images SET history_end = ? WHERE id = ?`.
def setHistoryEnd (end' : Option Int) : Database :=
  db.updateImage imgid fun image => { image with historyEnd := end' }

-- `DELETE FROM main.history WHERE imgid = ?`.
def deleteHistory : Database :=
  { db with history := db.history.filter fun row => row.imgid ≠ imgid }

-- `DELETE FROM main.masks_history WHERE imgid = ?`.
def deleteMasks : Database :=
  { db with masksHistory := db.masksHistory.filter fun row => row.imgid ≠ imgid }

-- `DELETE FROM main.history WHERE imgid = ? AND …`.
def deleteHistoryWhere (p : HistoryRow → Bool) : Database :=
  { db with history := db.history.filter fun row => !(row.imgid == imgid && p row) }

-- `DELETE FROM main.masks_history WHERE imgid = ? AND …`.
def deleteMasksWhere (p : MasksRow → Bool) : Database :=
  { db with masksHistory := db.masksHistory.filter fun row => !(row.imgid == imgid && p row) }

-- `UPDATE main.history SET … WHERE imgid = ?`.
def updateHistory (f : HistoryRow → HistoryRow) : Database :=
  { db with history := db.history.map fun row => if row.imgid = imgid then f row else row }

-- `UPDATE main.masks_history SET … WHERE imgid = ?`.
def updateMasks (f : MasksRow → MasksRow) : Database :=
  { db with masksHistory := db.masksHistory.map fun row ↦ if row.imgid = imgid then f row else row }

-- `UPDATE main.history SET num = num + ? WHERE imgid = ?`.
def shiftHistory (cnt : Int) : Database :=
  db.updateHistory imgid fun row => { row with num := row.num.map (· + cnt) }

-- `UPDATE main.images SET history_end = 0, aspect_ratio = 0.0 WHERE id = ?1`.
def resetImage : Database :=
  db.updateImage imgid fun image => { image with historyEnd := some 0, aspectRatio := some 0 }

-- `INSERT INTO main.history …`.
def insertHistory : Database :=
  { db with history := db.history ++ rows }

-- `INSERT INTO main.masks_history …`.
def insertMasks (rows : List MasksRow) : Database :=
  { db with masksHistory := db.masksHistory ++ rows }

section Rows

variable (db : Database) (imgid : ImgId)

theorem historyOf_deleteHistoryWhere (p : HistoryRow → Bool) :
    (db.deleteHistoryWhere imgid p).historyOf imgid =
      (db.historyOf imgid).filter fun row => !p row :=
  rowsOf_deleteWhere HistoryRow.imgid db.history imgid p

theorem masksOf_deleteMasksWhere (p : MasksRow → Bool) :
    (db.deleteMasksWhere imgid p).masksOf imgid = (db.masksOf imgid).filter fun row => !p row :=
  rowsOf_deleteWhere MasksRow.imgid db.masksHistory imgid p

theorem historyOf_deleteHistory : (db.deleteHistory imgid).historyOf imgid = [] :=
  rowsOf_delete HistoryRow.imgid db.history imgid

theorem masksOf_deleteMasks : (db.deleteMasks imgid).masksOf imgid = [] :=
  rowsOf_delete MasksRow.imgid db.masksHistory imgid

theorem historyOf_updateHistory {f : HistoryRow → HistoryRow}
    (hf : ∀ row, (f row).imgid = row.imgid) :
    (db.updateHistory imgid f).historyOf imgid = (db.historyOf imgid).map f :=
  rowsOf_update HistoryRow.imgid db.history hf imgid

theorem historyOf_insertHistory {rows : List HistoryRow} (hrows : ∀ row ∈ rows, row.imgid = imgid) :
    (db.insertHistory rows).historyOf imgid = db.historyOf imgid ++ rows :=
  rowsOf_insert HistoryRow.imgid db.history hrows

theorem masksOf_insertMasks {rows : List MasksRow} (hrows : ∀ row ∈ rows, row.imgid = imgid) :
    (db.insertMasks rows).masksOf imgid = db.masksOf imgid ++ rows :=
  rowsOf_insert MasksRow.imgid db.masksHistory hrows

theorem historyEnd_setHistoryEnd (end' : Option Int) :
    (db.setHistoryEnd imgid end').historyEnd imgid = (db.images imgid).bind fun _ => end' := by
  show ((Function.update db.images imgid _) imgid).bind _ = _
  rw [Function.update_self]
  cases db.images imgid with
  | none => rfl
  | some image => rfl

end Rows

/-- The image has the same history, masks, module order and `history_end` in both databases. -/
structure SameEdit (db db' : Database) (imgid : ImgId) : Prop where
  history : db.historyOf imgid = db'.historyOf imgid
  masks : db.masksOf imgid = db'.masksOf imgid
  moduleOrder : db.moduleOrder imgid = db'.moduleOrder imgid
  historyEnd : db.historyEnd imgid = db'.historyEnd imgid

theorem SameEdit.refl : SameEdit db db imgid := ⟨rfl, rfl, rfl, rfl⟩

section

variable {db db' : Database} {imgid : ImgId} (h : SameEdit db db' imgid)
include h

theorem SameEdit.symm : SameEdit db' db imgid := ⟨h.1.symm, h.2.symm, h.3.symm, h.4.symm⟩

theorem SameEdit.trans {db'' : Database} (h' : SameEdit db' db'' imgid) : SameEdit db db'' imgid :=
  ⟨h.1.trans h'.1, h.2.trans h'.2, h.3.trans h'.3, h.4.trans h'.4⟩

end

section Others

variable (db : Database) {imgid j : ImgId} (hj : j ≠ imgid)
include hj

theorem sameEdit_deleteHistoryWhere (p : HistoryRow → Bool) :
    SameEdit (db.deleteHistoryWhere imgid p) db j :=
  ⟨rowsOf_deleteWhere_of_ne HistoryRow.imgid db.history hj p, rfl, rfl, rfl⟩

theorem sameEdit_deleteMasksWhere (p : MasksRow → Bool) :
    SameEdit (db.deleteMasksWhere imgid p) db j :=
  ⟨rfl, rowsOf_deleteWhere_of_ne MasksRow.imgid db.masksHistory hj p, rfl, rfl⟩

theorem sameEdit_deleteHistory : SameEdit (db.deleteHistory imgid) db j :=
  ⟨rowsOf_delete_of_ne HistoryRow.imgid db.history hj, rfl, rfl, rfl⟩

theorem sameEdit_deleteMasks : SameEdit (db.deleteMasks imgid) db j :=
  ⟨rfl, rowsOf_delete_of_ne MasksRow.imgid db.masksHistory hj, rfl, rfl⟩

theorem sameEdit_updateHistory {f : HistoryRow → HistoryRow}
    (hf : ∀ row, (f row).imgid = row.imgid) : SameEdit (db.updateHistory imgid f) db j :=
  ⟨rowsOf_update_of_ne HistoryRow.imgid db.history hf hj, rfl, rfl, rfl⟩

theorem sameEdit_updateMasks {f : MasksRow → MasksRow}
    (hf : ∀ row, (f row).imgid = row.imgid) : SameEdit (db.updateMasks imgid f) db j :=
  ⟨rfl, rowsOf_update_of_ne MasksRow.imgid db.masksHistory hf hj, rfl, rfl⟩

theorem sameEdit_insertHistory {rows : List HistoryRow}
    (hrows : ∀ row ∈ rows, row.imgid = imgid) : SameEdit (db.insertHistory rows) db j :=
  ⟨rowsOf_insert_of_ne HistoryRow.imgid db.history hrows hj, rfl, rfl, rfl⟩

theorem sameEdit_insertMasks {rows : List MasksRow} (hrows : ∀ row ∈ rows, row.imgid = imgid) :
    SameEdit (db.insertMasks rows) db j :=
  ⟨rfl, rowsOf_insert_of_ne MasksRow.imgid db.masksHistory hrows hj, rfl, rfl⟩

theorem sameEdit_updateImage (f : ImageRow → ImageRow) :
    SameEdit (db.updateImage imgid f) db j := by
  refine ⟨rfl, rfl, rfl, ?_⟩
  show (Function.update db.images imgid ((db.images imgid).map f) j).bind _ = _
  rw [Function.update_of_ne hj]
  rfl

end Others

end Database

def sampleRow (num : Int) (op : String) : HistoryRow where
  imgid := 1
  num := some num
  module := some 1
  operation := some op
  opParams := some [1]
  enabled := some 1
  blendopParams := some [0]
  blendopVersion := some 1
  multiPriority := some 0
  multiName := some ""

def sampleDb (historyEnd : Int) (rows : List HistoryRow) : Database where
  images := Function.update (fun _ => none) 1
    (some { historyEnd := some historyEnd, aspectRatio := none, autoPresetsApplied := true })
  history := rows
  masksHistory := []
  moduleOrder _ := none
  historyHash _ := none
  undoHistory := []
  undoMasksHistory := []
  undoModuleOrder := []

def sampleCircle : MasksRow where
  imgid := 1
  num := some 0
  formid := some 1
  form := some 1
  name := some "circle #1"
  version := some 4
  points := some [1]
  pointsCount := some 1
  source := some [0]

def sampleSpots : Database :=
  { sampleDb 1 [sampleRow 0 "spots"] with masksHistory := [sampleCircle] }

end DTLite
