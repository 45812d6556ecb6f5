import DTLite.Common.HistoryHash
import DTLite.Reasoning.Transaction

/-!
# Snapshots of a history

Undo in the lighttable keeps snapshots of an image's history in tables of their own.  Every
statement is told whether it succeeds; one that fails does nothing.
-/

namespace DTLite

open Reasoning Database List Conn

/-- What `dt_history_snapshot_undo_create` gives back: the number of the snapshot and `history_end`
as it was. -/
structure Snapshot where
  id : Int
  historyEnd : Int
deriving DecidableEq, Repr

/-- Which statements of `dt_history_snapshot_undo_create` succeed. -/
structure CreateOutcome where
  selectEnd : Bool := true
  selectId : Bool := true
  begins : Bool := true
  insertDummy : Bool := true
  insertHistory : Bool := true
  insertMasks : Bool := true
  insertOrder : Bool := true
  commits : Bool := true
deriving DecidableEq, Repr

variable (md5 : Blob → Blob) (ok : CreateOutcome) (c : Conn Database) (db : Database)
  (imgid : ImgId)

-- `SELECT MAX(id) FROM memory.undo_history WHERE imgid=?1`.
def maxSnapshot : Option Int :=
  ((db.undoHistory.filter fun saved => saved.row.imgid = imgid).map UndoRow.id).max?

-- What the two queries give; a query that fails leaves the variable at 0.
def nextSnapshot : Snapshot where
  id := if ok.selectId then columnInt (maxSnapshot db imgid) + 1 else 0
  historyEnd := if ok.selectEnd then columnInt (db.historyEnd imgid) else 0

-- The row of `main.history` that has nothing but its image.
def nullRow : HistoryRow where
  imgid := imgid
  num := none
  module := none
  operation := none
  opParams := none
  enabled := none
  blendopParams := none
  blendopVersion := none
  multiPriority := none
  multiName := none

-- "insert a dummy undo_histroy to ensure proper snap_id later".
def saveDummy (id : Int) (db : Database) : Database :=
  { db with undoHistory := db.undoHistory ++ [⟨id, nullRow imgid⟩] }

-- "copy current state into undo_history".
def saveHistory (id : Int) (db : Database) : Database :=
  { db with undoHistory := db.undoHistory ++ (db.historyOf imgid).map (UndoRow.mk id) }

-- "copy current state into undo_masks_history".
def saveMasks (id : Int) (db : Database) : Database :=
  { db with undoMasksHistory := db.undoMasksHistory ++ (db.masksOf imgid).map (UndoRow.mk id) }

-- "copy the module order".
def saveModuleOrder (id : Int) (db : Database) : Database :=
  { db with
    undoModuleOrder := db.undoModuleOrder ++
      (db.moduleOrder imgid).toList.map (UndoModuleOrder.mk id imgid) }

variable (snap : Snapshot)

-- The INSERT statements. After one that fails the others are not stepped.
def insertSnapshot (db : Database) : Database :=
  if snap.historyEnd = 0 then attempt ok.insertDummy (saveDummy imgid snap.id) db
  else
    let db := attempt ok.insertHistory (saveHistory imgid snap.id) db
    let db := attempt (ok.insertHistory && ok.insertMasks) (saveMasks imgid snap.id) db
    attempt (ok.insertHistory && ok.insertMasks && ok.insertOrder)
      (saveModuleOrder imgid snap.id) db

-- `all_ok`: every INSERT was done.
def insertsDone : Bool :=
  if snap.historyEnd = 0 then ok.insertDummy
  else ok.insertHistory && ok.insertMasks && ok.insertOrder

def dtHistorySnapshotUndoCreate : Conn Database × Snapshot :=
  let snap := nextSnapshot ok c.data imgid
  let c := c.exec "BEGIN TRANSACTION" ok.begins
  let c := c.run (insertSnapshot ok imgid snap)
  (c.exec (if insertsDone ok snap then "COMMIT" else "ROLLBACK_TRANSACTION") ok.commits, snap)

/-- Which statements of `dt_history_delete_on_image_ext` succeed. -/
structure DeleteOutcome where
  history : Bool := true
  moduleOrder : Bool := true
  images : Bool := true
  masks : Bool := true
  historyHash : Bool := true
  presetFlag : Bool := true
  currentHash : Bool := true
deriving DecidableEq, Repr

-- `DELETE FROM main.module_order WHERE imgid = ?1`.
def deleteModuleOrder (db : Database) : Database :=
  { db with moduleOrder := Function.update db.moduleOrder imgid none }

-- `DELETE FROM main.history_hash WHERE imgid = ?1`.
def deleteHistoryHash (db : Database) : Database :=
  { db with historyHash := Function.update db.historyHash imgid none }

def removePresetFlag (db : Database) : Database :=
  db.updateImage imgid fun image => { image with autoPresetsApplied := false }

-- The statements before the hash.
def deleteRows (ok : DeleteOutcome) (imgid : ImgId) (db : Database) : Database :=
  let db := attempt ok.history (·.deleteHistory imgid) db
  let db := attempt ok.moduleOrder (deleteModuleOrder imgid) db
  let db := attempt ok.images (·.resetImage imgid) db
  let db := attempt ok.masks (·.deleteMasks imgid) db
  let db := attempt ok.historyHash (deleteHistoryHash imgid) db
  attempt ok.presetFlag (removePresetFlag imgid) db

def deleteOnImage (ok : DeleteOutcome) (imgid : ImgId) (db : Database) : Database :=
  attempt ok.currentHash (dtHistoryHashWriteFromHistory md5 · imgid { current := true })
    (deleteRows ok imgid db)

/-- On an image that is not open in the darkroom. -/
def dtHistoryDeleteOnImageExt (ok : DeleteOutcome) (c : Conn Database) (imgid : ImgId)
    (undo : Bool) : Conn Database :=
  let c := if undo then (dtHistorySnapshotUndoCreate {} c imgid).1 else c
  let c := c.run (deleteOnImage md5 ok imgid)
  if undo then (dtHistorySnapshotUndoCreate {} c imgid).1 else c

/-- Which statements of `_history_snapshot_undo_restore` succeed. -/
structure RestoreOutcome where
  begins : Bool := true
  deletes : DeleteOutcome := {}
  insertHistory : Bool := true
  insertMasks : Bool := true
  updateEnd : Bool := true
  insertOrder : Bool := true
  commits : Bool := true
deriving DecidableEq, Repr

def savedHistory (id : Int) : List HistoryRow :=
  (db.undoHistory.filter fun saved => saved.row.imgid = imgid ∧ saved.id = id).map UndoRow.row

def savedMasks (id : Int) : List MasksRow :=
  (db.undoMasksHistory.filter fun saved => saved.row.imgid = imgid ∧ saved.id = id).map UndoRow.row

def savedOrders (id : Int) : List ModuleOrder :=
  (db.undoModuleOrder.filter fun saved => saved.imgid = imgid ∧ saved.id = id).map
    UndoModuleOrder.order

/-- `INSERT INTO main.module_order SELECT …`, `none` if it fails: the image is the primary key, so
two rows, or one beside the row that is there, violate it. -/
def restoreModuleOrder? (id : Int) (db : Database) : Option Database :=
  match savedOrders db imgid id with
  | [] => some db
  | [order] =>
      if (db.moduleOrder imgid).isNone then
        some { db with moduleOrder := Function.update db.moduleOrder imgid (some order) }
      else none
  | _ => none

def restoreRows (ok : RestoreOutcome) (imgid : ImgId) (snap : Snapshot) (db : Database) :
    Database :=
  let db := attempt ok.insertHistory
    (fun db => db.insertHistory (savedHistory db imgid snap.id)) db
  let db := attempt ok.insertMasks (fun db => db.insertMasks (savedMasks db imgid snap.id)) db
  let db := attempt ok.updateEnd (·.setHistoryEnd imgid (some snap.historyEnd)) db
  attempt ok.insertOrder (fun db => (restoreModuleOrder? imgid snap.id db).getD db) db

-- `all_ok`: no statement returned `SQLITE_DONE`. The tests are the wrong way round.
def noneDone (ok : RestoreOutcome) (imgid : ImgId) (snap : Snapshot) (deleted : Database) : Bool :=
  !ok.insertHistory && !ok.insertMasks && !ok.updateEnd
    && !(ok.insertOrder && (restoreModuleOrder? imgid snap.id deleted).isSome)

def historySnapshotUndoRestore (ok : RestoreOutcome) (c : Conn Database) (imgid : ImgId)
    (snap : Snapshot) : Conn Database :=
  let c := c.exec "BEGIN TRANSACTION" ok.begins
  let c := dtHistoryDeleteOnImageExt md5 ok.deletes c imgid false
  let allOk := noneDone ok imgid snap c.data
  let c := c.run (restoreRows ok imgid snap)
  c.exec (if allOk then "COMMIT" else "ROLLBACK_TRANSACTION") ok.commits

section Saved

variable (db : Database) (imgid : ImgId)

theorem savedHistory_nextSnapshot (ok : CreateOutcome) (hid : ok.selectId = true) :
    savedHistory db imgid (nextSnapshot ok db imgid).id = [] := by
  rw [savedHistory, map_eq_nil_iff, filter_eq_nil_iff]
  intro saved hsaved h
  obtain ⟨himgid, heq⟩ := of_decide_eq_true h
  have hmem : saved.id ∈ (db.undoHistory.filter fun saved => saved.row.imgid = imgid).map
      UndoRow.id :=
    mem_map_of_mem (mem_filter.mpr ⟨hsaved, decide_eq_true himgid⟩)
  have hmax : saved.id ≤ columnInt (maxSnapshot db imgid) := by
    cases hcase : maxSnapshot db imgid with
    | none =>
      rw [maxSnapshot, max?_eq_none_iff] at hcase
      rw [hcase] at hmem
      cases hmem
    | some id => exact (max?_eq_some_iff.mp hcase).2 _ hmem
  have hnext : (nextSnapshot ok db imgid).id = columnInt (maxSnapshot db imgid) + 1 := if_pos hid
  omega

theorem filter_saved_append {α : Type} (imgid' : α → ImgId) (id : Int)
    (saved : List (UndoRow α)) (rows : List α) (hrows : ∀ row ∈ rows, imgid' row = imgid) :
    ((saved ++ rows.map (UndoRow.mk id)).filter fun saved =>
        imgid' saved.row = imgid ∧ saved.id = id).map UndoRow.row =
      (saved.filter fun saved => imgid' saved.row = imgid ∧ saved.id = id).map UndoRow.row ++
        rows := by
  have hall : (rows.map (UndoRow.mk id)).filter
      (fun saved => imgid' saved.row = imgid ∧ saved.id = id) = rows.map (UndoRow.mk id) := by
    rw [filter_eq_self]
    intro saved hsaved
    obtain ⟨row, hrow, rfl⟩ := mem_map.mp hsaved
    exact decide_eq_true ⟨hrows row hrow, rfl⟩
  rw [filter_append, map_append, hall, map_map]
  exact congrArg _ (map_id rows)

theorem imgid_of_mem_historyOf {row : HistoryRow} (h : row ∈ db.historyOf imgid) :
    row.imgid = imgid :=
  of_decide_eq_true (mem_filter.mp h).2

theorem imgid_of_mem_masksOf {row : MasksRow} (h : row ∈ db.masksOf imgid) : row.imgid = imgid :=
  of_decide_eq_true (mem_filter.mp h).2

/-- The rows of the image as it is, or the dummy if `history_end` is 0, after what other snapshots
left under the number. -/
theorem saved_create :
    let snap := nextSnapshot {} db imgid
    let db' := insertSnapshot {} imgid snap db
    let empty := columnInt (db.historyEnd imgid) = 0
    savedHistory db' imgid snap.id = (if empty then [nullRow imgid] else db.historyOf imgid) ∧
      savedMasks db' imgid snap.id =
        savedMasks db imgid snap.id ++ (if empty then [] else db.masksOf imgid) ∧
      savedOrders db' imgid snap.id =
        savedOrders db imgid snap.id ++ (if empty then [] else (db.moduleOrder imgid).toList) := by
  intro snap db' empty
  have hfresh : savedHistory db imgid snap.id = [] := savedHistory_nextSnapshot db imgid {} rfl
  by_cases hempty : columnInt (db.historyEnd imgid) = 0
  · have hdb' : db' = saveDummy imgid snap.id db := if_pos hempty
    rw [hdb', if_pos hempty, if_pos hempty, if_pos hempty, append_nil, append_nil]
    refine ⟨?_, rfl, rfl⟩
    have happend := filter_saved_append imgid HistoryRow.imgid snap.id db.undoHistory
      [nullRow imgid] (by simp [nullRow])
    exact happend.trans (by rw [show map _ _ = [] from hfresh]; rfl)
  · have hdb' : db' = saveModuleOrder imgid snap.id (saveMasks imgid snap.id
        (saveHistory imgid snap.id db)) := if_neg hempty
    rw [hdb', if_neg hempty, if_neg hempty, if_neg hempty]
    refine ⟨?_, ?_, ?_⟩
    · have happend := filter_saved_append imgid HistoryRow.imgid snap.id db.undoHistory
        (db.historyOf imgid) fun row => imgid_of_mem_historyOf db imgid
      exact happend.trans (by rw [show map _ _ = [] from hfresh]; rfl)
    · exact filter_saved_append imgid MasksRow.imgid snap.id db.undoMasksHistory
        (db.masksOf imgid) fun row => imgid_of_mem_masksOf db imgid
    · show ((db.undoModuleOrder ++ _).filter _).map _ = _
      rw [filter_append, map_append]
      congr 1
      show (filter _ ((db.moduleOrder imgid).toList.map _)).map _ = _
      cases db.moduleOrder imgid <;> simp

end Saved

def soleOrder : List ModuleOrder → Option ModuleOrder
  | [order] => some order
  | _ => none

attribute [ext] Database

theorem apply_attempt {σ γ : Type} (obs : σ → γ) (b : Bool) (f : σ → σ) (s : σ) :
    obs (attempt b f s) = if b then obs (f s) else obs s := apply_ite obs ..

section Restored

variable (imgid : ImgId)

theorem deleteRows_eq (ok : DeleteOutcome) (db : Database) : deleteRows ok imgid db =
    { db with
      images := Function.update db.images imgid ((db.images imgid).map fun image =>
        { historyEnd := if ok.images then some 0 else image.historyEnd
          aspectRatio := if ok.images then some 0 else image.aspectRatio
          autoPresetsApplied := image.autoPresetsApplied && !ok.presetFlag })
      history := if ok.history then db.history.filter fun row => row.imgid ≠ imgid else db.history
      masksHistory :=
        if ok.masks then db.masksHistory.filter fun row => row.imgid ≠ imgid else db.masksHistory
      moduleOrder :=
        Function.update db.moduleOrder imgid (if ok.moduleOrder then none else db.moduleOrder imgid)
      historyHash := Function.update db.historyHash imgid
        (if ok.historyHash then none else db.historyHash imgid) } := by
  apply Database.ext <;>
    simp only [deleteRows, apply_attempt Database.images, apply_attempt Database.history,
      apply_attempt masksHistory, apply_attempt moduleOrder, apply_attempt historyHash,
      apply_attempt undoHistory, apply_attempt undoMasksHistory, apply_attempt undoModuleOrder,
      deleteHistory, deleteModuleOrder, deleteMasks, resetImage, updateImage, deleteHistoryHash,
      removePresetFlag, ite_self]
  · cases ok.images <;> cases ok.presetFlag <;> simp [Function.comp_def]
  · cases ok.moduleOrder <;> simp
  · cases ok.historyHash <;> simp

theorem deleteOnImage_hashes (md5 : Blob → Blob) (ok : DeleteOutcome) (db : Database) :
    ∃ hashes, deleteOnImage md5 ok imgid db =
      { deleteRows ok imgid db with historyHash := hashes } := by
  rw [deleteOnImage, attempt]
  split
  · exact dtHistoryHashWriteFromHistory_eq ..
  · exact ⟨_, rfl⟩

/-- After `dt_history_delete_on_image_ext` the image has nothing in the history tables; the
snapshots stay. -/
theorem deleteOnImage_spec (md5 : Blob → Blob) (db : Database) :
    let deleted := deleteOnImage md5 {} imgid db
    deleted.historyOf imgid = [] ∧ deleted.masksOf imgid = [] ∧
      deleted.moduleOrder imgid = none ∧
      (deleted.images imgid).isSome = (db.images imgid).isSome ∧
      deleted.undoHistory = db.undoHistory ∧ deleted.undoMasksHistory = db.undoMasksHistory ∧
      deleted.undoModuleOrder = db.undoModuleOrder := by
  intro deleted
  obtain ⟨hashes, hdeleted⟩ := deleteOnImage_hashes imgid md5 {} db
  rw [show deleted = _ from hdeleted, deleteRows_eq]
  refine ⟨db.historyOf_deleteHistory imgid, db.masksOf_deleteMasks imgid,
    Function.update_self .., ?_, rfl, rfl, rfl⟩
  simp

theorem getD_restoreModuleOrder? (id : Int) (db : Database) :
    (restoreModuleOrder? imgid id db).getD db =
    { db with
      moduleOrder := Function.update db.moduleOrder imgid
        ((db.moduleOrder imgid).or (soleOrder (savedOrders db imgid id))) } := by
  rw [restoreModuleOrder?]
  match savedOrders db imgid id with
  | [] => simp [soleOrder]
  | [order] =>
    cases horder : db.moduleOrder imgid with
    | none => simp [soleOrder]
    | some other =>
      rw [Option.some_or, ← horder, Function.update_eq_self, horder]
      rfl
  | _ :: _ :: _ => simp [soleOrder]

theorem imgid_of_mem_saved {α : Type} {imgid' : α → ImgId} {id : Int} {saved : List (UndoRow α)}
    {row : α} (h : row ∈ (saved.filter fun saved => imgid' saved.row = imgid ∧ saved.id = id).map
      UndoRow.row) : imgid' row = imgid := by
  obtain ⟨saved, hsaved, rfl⟩ := mem_map.mp h
  exact (of_decide_eq_true (mem_filter.mp hsaved).2).1

theorem filter_append_own {α : Type} {imgid' : α → ImgId} {rows own : List α}
    (hrows : rows.filter (fun row => imgid' row = imgid) = [])
    (hown : ∀ row ∈ own, imgid' row = imgid) :
    (rows ++ own).filter (fun row => imgid' row = imgid) = own := by
  rw [filter_append, hrows, nil_append, filter_eq_self]
  exact fun row hrow => decide_eq_true (hown row hrow)

theorem restoreRows_spec (snap : Snapshot) {db : Database} (hhistory : db.historyOf imgid = [])
    (hmasks : db.masksOf imgid = []) (horder : db.moduleOrder imgid = none) :
    let restored := restoreRows {} imgid snap db
    restored.historyOf imgid = savedHistory db imgid snap.id ∧
      restored.masksOf imgid = savedMasks db imgid snap.id ∧
      restored.moduleOrder imgid = soleOrder (savedOrders db imgid snap.id) ∧
      restored.historyEnd imgid = (db.images imgid).map fun _ => snap.historyEnd := by
  intro restored
  set before := ((db.insertHistory (savedHistory db imgid snap.id)).insertMasks
    (savedMasks db imgid snap.id)).setHistoryEnd imgid (some snap.historyEnd) with hbefore
  rw [show restored = _ from getD_restoreModuleOrder? imgid snap.id before]
  refine ⟨filter_append_own imgid hhistory fun row => imgid_of_mem_saved imgid,
    filter_append_own imgid hmasks fun row => imgid_of_mem_saved imgid, ?_, ?_⟩
  · refine (Function.update_self ..).trans ?_
    rw [show before.moduleOrder imgid = none from horder]
    rfl
  · have himages : before.images imgid = (db.images imgid).map fun image =>
        { image with historyEnd := some snap.historyEnd } := Function.update_self ..
    show (before.images imgid).bind ImageRow.historyEnd = _
    rw [himages]
    cases db.images imgid <;> rfl

end Restored

/-! ## There and back -/

theorem create_data :
    (dtHistorySnapshotUndoCreate {} c imgid).1.data =
      insertSnapshot {} imgid (nextSnapshot {} c.data imgid) c.data := by
  have hdone : insertsDone {} (nextSnapshot {} c.data imgid) = true := ite_self _
  show (exec _ (if insertsDone {} (nextSnapshot {} c.data imgid) then _ else _) true).data = _
  rw [if_pos hdone]
  show insertSnapshot {} imgid _ (c.start true).data = _
  rw [start_data]

theorem restore_data :
    (historySnapshotUndoRestore md5 {} c imgid snap).data =
      restoreRows {} imgid snap (deleteOnImage md5 {} imgid c.data) := by
  show restoreRows {} imgid snap (deleteOnImage md5 {} imgid (c.start true).data) = _
  rw [start_data]

structure SameSnapshots (db db' : Database) : Prop where
  history : db.undoHistory = db'.undoHistory
  masks : db.undoMasksHistory = db'.undoMasksHistory
  moduleOrder : db.undoModuleOrder = db'.undoModuleOrder

/-- With `history_end` at 0 the image has just the dummy and what is left under the number;
otherwise nothing is left under it. -/
def SnapshotFaithful : Prop :=
  let id := (nextSnapshot {} db imgid).id
  if columnInt (db.historyEnd imgid) = 0 then
    db.historyOf imgid = [nullRow imgid] ∧ db.masksOf imgid = savedMasks db imgid id ∧
      db.moduleOrder imgid = soleOrder (savedOrders db imgid id) ∧
      db.historyEnd imgid = (db.images imgid).map fun _ => 0
  else
    savedMasks db imgid id = [] ∧
      (savedOrders db imgid id = [] ∨
        db.moduleOrder imgid = none ∧ 2 ≤ (savedOrders db imgid id).length)

instance decidableSnapshotFaithful (db : Database) (imgid : ImgId) :
    Decidable (SnapshotFaithful db imgid) :=
  inferInstanceAs (Decidable (ite _ _ _))

theorem soleOrder_append_toList_iff (orders : List ModuleOrder) (order : Option ModuleOrder) :
    soleOrder (orders ++ order.toList) = order ↔
      orders = [] ∨ order = none ∧ 2 ≤ orders.length := by
  cases order with
  | none =>
    match orders with
    | [] => simp [soleOrder]
    | [_] => simp [soleOrder]
    | _ :: _ :: _ => simp [soleOrder]
  | some order =>
    match orders with
    | [] => simp [soleOrder]
    | [_] => simp [soleOrder]
    | _ :: _ :: _ => simp [soleOrder]

theorem map_const_of_isSome_eq {α β : Type} {a b : Option α} (h : a.isSome = b.isSome) (x : β) :
    (a.map fun _ => x) = b.map fun _ => x := by
  cases a <;> cases b <;> simp_all

theorem historyEnd_of_columnInt_ne {db : Database} {imgid : ImgId}
    (h : columnInt (db.historyEnd imgid) ≠ 0) :
    db.historyEnd imgid = (db.images imgid).map fun _ => columnInt (db.historyEnd imgid) := by
  cases hend : db.historyEnd imgid with
  | none =>
    rw [hend] at h
    exact absurd rfl h
  | some historyEnd =>
    obtain ⟨image, himage, -⟩ := Option.bind_eq_some_iff.mp hend
    rw [himage]
    rfl

/-- Going back to the snapshot that was just taken, after any change of the image's own tables,
restores the image exactly if the snapshot is faithful. -/
theorem snapshot_restores_iff (md5 : Blob → Blob) (c changed : Conn Database) (imgid : ImgId)
    (hsnapshots : SameSnapshots changed.data (dtHistorySnapshotUndoCreate {} c imgid).1.data)
    (himage : (changed.data.images imgid).isSome = (c.data.images imgid).isSome) :
    SameEdit
        (historySnapshotUndoRestore md5 {} changed imgid
          (dtHistorySnapshotUndoCreate {} c imgid).2).data c.data imgid ↔
      SnapshotFaithful c.data imgid := by
  set snap := nextSnapshot {} c.data imgid with hsnap
  rw [create_data] at hsnapshots
  show SameEdit (historySnapshotUndoRestore md5 {} changed imgid snap).data c.data imgid ↔ _
  rw [restore_data]
  obtain ⟨hhistory, hmasks, horder, himages, hundo, hundoMasks, hundoOrder⟩ :=
    deleteOnImage_spec imgid md5 changed.data
  obtain ⟨hbackHistory, hbackMasks, hbackOrder, hbackEnd⟩ :=
    restoreRows_spec imgid snap hhistory hmasks horder
  obtain ⟨hsavedHistory, hsavedMasks, hsavedOrders⟩ := saved_create c.data imgid
  -- the snapshot is read back from tables that nothing has touched since
  rw [savedHistory, hundo, hsnapshots.history, ← savedHistory, hsavedHistory] at hbackHistory
  rw [savedMasks, hundoMasks, hsnapshots.masks, ← savedMasks, hsavedMasks] at hbackMasks
  rw [savedOrders, hundoOrder, hsnapshots.moduleOrder, ← savedOrders, hsavedOrders] at hbackOrder
  rw [map_const_of_isSome_eq (himages.trans himage),
    show snap.historyEnd = columnInt (c.data.historyEnd imgid) from rfl] at hbackEnd
  set back := restoreRows {} imgid snap (deleteOnImage md5 {} imgid changed.data)
  have hback : SameEdit back c.data imgid ↔
      back.historyOf imgid = c.data.historyOf imgid ∧ back.masksOf imgid = c.data.masksOf imgid ∧
        back.moduleOrder imgid = c.data.moduleOrder imgid ∧
        back.historyEnd imgid = c.data.historyEnd imgid :=
    ⟨fun h => ⟨h.1, h.2, h.3, h.4⟩, fun h => ⟨h.1, h.2.1, h.2.2.1, h.2.2.2⟩⟩
  rw [hback, hbackHistory, hbackMasks, hbackOrder, hbackEnd, SnapshotFaithful]
  by_cases hempty : columnInt (c.data.historyEnd imgid) = 0
  · rw [if_pos hempty, if_pos hempty, if_pos hempty, append_nil, append_nil, hempty]
    exact ⟨fun h => ⟨h.1.symm, h.2.1.symm, h.2.2.1.symm, h.2.2.2.symm⟩,
      fun h => ⟨h.1.symm, h.2.1.symm, h.2.2.1.symm, h.2.2.2.symm⟩⟩
  · rw [if_neg hempty, if_neg hempty, if_neg hempty, if_neg hempty,
      ← historyEnd_of_columnInt_ne hempty, append_left_eq_self, soleOrder_append_toList_iff]
    exact ⟨fun h => ⟨h.2.1, h.2.2.1⟩, fun h => ⟨rfl, h.1, h.2, rfl⟩⟩

def sampleConn : Conn Database :=
  ⟨sampleDb 2 [sampleRow 0 "demosaic", sampleRow 1 "exposure"], none⟩

def sampleSnapshot : Conn Database × Snapshot := dtHistorySnapshotUndoCreate {} sampleConn 1

def sampleCleared : Conn Database :=
  sampleSnapshot.1.run fun db => (db.deleteHistory 1).setHistoryEnd 1 (some 0)

theorem snapshot_restores_twoRows :
    SameEdit (historySnapshotUndoRestore id {} sampleCleared 1 sampleSnapshot.2).data
      sampleConn.data 1 :=
  (snapshot_restores_iff id sampleConn sampleCleared 1 ⟨rfl, rfl, rfl⟩ (by decide)).mpr (by decide)

/-- An image without a history gets the dummy row. -/
theorem snapshot_empty_restores_dummy :
    let c : Conn Database := ⟨sampleDb 0 [], none⟩
    let r := dtHistorySnapshotUndoCreate {} c 1
    ¬ SameEdit (historySnapshotUndoRestore id {} r.1 1 r.2).data c.data 1 := by
  intro c r h
  cases h.history

/-! ## Failing statements -/

section Atomic

variable {c : Conn Database} {imgid : ImgId}

def createSucceeded (imgid : ImgId) : Bool :=
  ok.selectEnd && ok.selectId && ok.begins && insertsDone ok (nextSnapshot ok db imgid)
    && ok.commits

def createApplied (imgid : ImgId) : Database :=
  insertSnapshot {} imgid (nextSnapshot {} db imgid) db

-- The INSERT statements that succeed find nothing to insert.
def InsertsNothing (imgid : ImgId) (snap : Snapshot) : Prop :=
  if snap.historyEnd = 0 then ok.insertDummy = false
  else
    ok.insertHistory = true → db.historyOf imgid = [] ∧
      (ok.insertMasks = true → db.masksOf imgid = [] ∧
        (ok.insertOrder = true → db.moduleOrder imgid = none))

/-- The outcomes that `dt_history_snapshot_undo_create` copes with. -/
def CreateSafe (imgid : ImgId) : Prop :=
  let snap := nextSnapshot ok db imgid
  if ok.begins then
    insertsDone ok snap = true ∧ ok.commits = true ∧
      (ok.selectEnd = true ∧ ok.selectId = true ∨ InsertsNothing ok db imgid snap)
  else InsertsNothing ok db imgid snap

theorem insertSnapshot_eq_iff :
    insertSnapshot ok imgid snap db = db ↔ InsertsNothing ok db imgid snap := by
  rw [insertSnapshot, InsertsNothing]
  by_cases hend : snap.historyEnd = 0
  · rw [if_pos hend, if_pos hend]
    cases ok.insertDummy <;> simp [attempt, saveDummy, Database.ext_iff]
  · rw [if_neg hend, if_neg hend]
    cases ok.insertHistory <;> cases ok.insertMasks <;> cases ok.insertOrder <;>
      simp [attempt, saveHistory, saveMasks, saveModuleOrder, masksOf, Database.ext_iff]

theorem insertSnapshot_of_done {ok : CreateOutcome} {snap : Snapshot}
    (hdone : insertsDone ok snap = true) (db : Database) :
    insertSnapshot ok imgid snap db = insertSnapshot {} imgid snap db := by
  rw [insertSnapshot, insertSnapshot]
  rw [insertsDone] at hdone
  by_cases hend : snap.historyEnd = 0
  · rw [if_pos hend] at hdone
    rw [if_pos hend, if_pos hend, hdone]
  · rw [if_neg hend, Bool.and_eq_true, Bool.and_eq_true] at hdone
    rw [if_neg hend, if_neg hend, hdone.1.1, hdone.1.2, hdone.2]

-- "ROLLBACK_TRANSACTION" is one word, which is no statement.
theorem exec_rollbackTransaction (c : Conn Database) (ok : Bool) :
    c.exec "ROLLBACK_TRANSACTION" ok = c := by
  rw [exec, if_neg (by decide), if_neg (by decide), if_neg (by decide)]

theorem create_outcome (hclosed : c.saved = none) (ok : CreateOutcome) :
    let snap := nextSnapshot ok c.data imgid
    let after := (dtHistorySnapshotUndoCreate ok c imgid).1
    after.data = insertSnapshot ok imgid snap c.data ∧
      (after.saved = none ↔
        (ok.begins = true → insertsDone ok snap = true ∧ ok.commits = true)) := by
  exact transaction_outcome hclosed exec_rollbackTransaction _ ok.begins _ ok.commits

theorem create_atomic_iff (hclosed : c.saved = none) (ok : CreateOutcome) :
    Atomic c (dtHistorySnapshotUndoCreate ok c imgid).1 (createSucceeded ok c.data imgid)
        (createApplied c.data imgid) ↔
      CreateSafe ok c.data imgid := by
  obtain ⟨hdata, hsaved⟩ := @create_outcome c imgid hclosed ok
  rw [atomic_iff hdata hsaved, CreateSafe, createSucceeded]
  cases hbegins : ok.begins with
  | false => simp [insertSnapshot_eq_iff]
  | true =>
    by_cases hdone : insertsDone ok (nextSnapshot ok c.data imgid) = true ∧ ok.commits = true
    · by_cases hselects : ok.selectEnd = true ∧ ok.selectId = true
      · -- all went well, so what was inserted is all there is to insert
        have hsnap : nextSnapshot ok c.data imgid = nextSnapshot {} c.data imgid := by
          rw [nextSnapshot, nextSnapshot, hselects.1, hselects.2]
        have happlied : insertSnapshot ok imgid (nextSnapshot ok c.data imgid) c.data =
            createApplied c.data imgid := by
          rw [insertSnapshot_of_done hdone.1, hsnap]
          rfl
        simp [hdone, hselects, happlied]
      · simp [hdone, insertSnapshot_eq_iff, hselects]
    · exact iff_of_false (fun h => hdone (h.1 rfl)) fun h => hdone ⟨h.1, h.2.1⟩

def DeleteOutcome.all (ok : DeleteOutcome) : Bool := ok == {}

def restoreSucceeded (ok : RestoreOutcome) (db : Database) (imgid : ImgId) (snap : Snapshot) :
    Bool :=
  ok.begins && ok.deletes.all && ok.insertHistory && ok.insertMasks && ok.updateEnd
    && ok.insertOrder
    && (restoreModuleOrder? imgid snap.id (deleteOnImage md5 ok.deletes imgid db)).isSome
    && ok.commits

def restoreApplied (imgid : ImgId) (snap : Snapshot) : Database :=
  restoreRows {} imgid snap (deleteOnImage md5 {} imgid db)

-- Rows that are not deleted get no others beside them; deleted ones come back where they were, at
-- the end of the table.
def RowsKept {α : Type} (imgid' : α → ImgId) (imgid : ImgId) (deletes inserts : Bool)
    (rows saved : List α) : Prop :=
  if deletes then
    ∃ others, (∀ row ∈ others, imgid' row ≠ imgid) ∧ rows = others ++ if inserts then saved else []
  else inserts = true → saved = []

-- The row of the hashes, with the hash of what the deletes have left.
def HashKept (ok : DeleteOutcome) (imgid : ImgId) : Prop :=
  match if ok.currentHash then historyHashComputeFromDb md5 (deleteRows ok imgid db) imgid
    else none with
  | none => ok.historyHash = true → db.historyHash imgid = none
  | some hash => ∃ row ∈ db.historyHash imgid, row.currentHash = some hash ∧
      (ok.historyHash = true → row = { currentHash := some hash })

/-- What the statements of the restore that succeed take away they also put back. -/
@[mk_iff]
structure RestoreKeeps (ok : RestoreOutcome) (imgid : ImgId) (snap : Snapshot) : Prop where
  image : ∀ image ∈ db.images imgid,
    (ok.deletes.images = true → image.aspectRatio = some 0) ∧
    (if ok.updateEnd then image.historyEnd = some snap.historyEnd
      else ok.deletes.images = true → image.historyEnd = some 0) ∧
    (ok.deletes.presetFlag = true → image.autoPresetsApplied = false)
  history : RowsKept HistoryRow.imgid imgid ok.deletes.history ok.insertHistory db.history
    (savedHistory db imgid snap.id)
  masks : RowsKept MasksRow.imgid imgid ok.deletes.masks ok.insertMasks db.masksHistory
    (savedMasks db imgid snap.id)
  order :
    if ok.deletes.moduleOrder then
      db.moduleOrder imgid =
        if ok.insertOrder then soleOrder (savedOrders db imgid snap.id) else none
    else ok.insertOrder = true → db.moduleOrder imgid = none →
      soleOrder (savedOrders db imgid snap.id) = none
  hash : HashKept md5 db ok.deletes imgid

-- All four statements that put the snapshot back fail, that of the order also at its primary key.
def NoneDone (ok : RestoreOutcome) (imgid : ImgId) (snap : Snapshot) : Prop :=
  ok.insertHistory = false ∧ ok.insertMasks = false ∧ ok.updateEnd = false ∧
    (ok.insertOrder = true → 2 ≤ (savedOrders db imgid snap.id).length ∨
      (savedOrders db imgid snap.id).length = 1 ∧ ok.deletes.moduleOrder = false ∧
        (db.moduleOrder imgid).isSome)

/-- The outcomes that `_history_snapshot_undo_restore` copes with. -/
def RestoreSafe (ok : RestoreOutcome) (imgid : ImgId) (snap : Snapshot) : Prop :=
  (ok.begins = true → NoneDone db ok imgid snap ∧ ok.commits = true) ∧
    RestoreKeeps md5 db ok imgid snap

theorem rowsKept_iff {α : Type} {imgid' : α → ImgId} {deletes inserts : Bool} {rows saved : List α}
    (hsaved : ∀ row ∈ saved, imgid' row = imgid) :
    (if inserts then
        (if deletes then rows.filter fun row => imgid' row ≠ imgid else rows) ++ saved
      else if deletes then rows.filter fun row => imgid' row ≠ imgid else rows) = rows ↔
      RowsKept imgid' imgid deletes inserts rows saved := by
  cases deletes with
  | false => cases inserts <;> simp [RowsKept]
  | true =>
    have hnew : ∀ row ∈ if inserts then saved else [], imgid' row = imgid := by
      cases inserts with
      | true => exact hsaved
      | false => exact fun row hrow => absurd hrow not_mem_nil
    have happend : ∀ rows : List α, (if inserts then rows ++ saved else rows) =
        rows ++ if inserts then saved else [] := by
      cases inserts <;> simp
    simp only [if_true, happend]
    refine ⟨fun h => ⟨_, fun row hrow => of_decide_eq_true (mem_filter.mp hrow).2, h.symm⟩, ?_⟩
    rintro ⟨others, hothers, rfl⟩
    rw [filter_append, filter_eq_self.mpr fun row hrow => decide_eq_true (hothers row hrow),
      filter_eq_nil_iff.mpr fun row hrow => by simpa using hnew row hrow, append_nil]

theorem hashKept_iff {ok : DeleteOutcome} :
    (deleteOnImage md5 ok imgid db).historyHash = db.historyHash ↔
      HashKept md5 db ok imgid := by
  rw [HashKept, deleteOnImage, apply_attempt historyHash, dtHistoryHashWriteFromHistory]
  cases ok.currentHash with
  | false =>
    rw [deleteRows_eq]
    cases ok.historyHash <;> simp [eq_comm]
  | true =>
    cases historyHashComputeFromDb md5 (deleteRows ok imgid db) imgid with
    | none =>
      rw [deleteRows_eq]
      cases ok.historyHash <;> simp [eq_comm]
    | some hash =>
      rw [deleteRows_eq]
      cases ok.historyHash <;> cases hrow : db.historyHash imgid <;>
        simp [hrow, HistoryHash.write] <;> grind [cases HistoryHash]

theorem restoreRows_eq_iff {ok : RestoreOutcome} {snap : Snapshot} :
    restoreRows ok imgid snap (deleteOnImage md5 ok.deletes imgid db) = db ↔
      RestoreKeeps md5 db ok imgid snap := by
  obtain ⟨hashes, hwrite⟩ := deleteOnImage_hashes imgid md5 ok.deletes db
  rw [Database.ext_iff, restoreKeeps_iff, ← hashKept_iff, hwrite, deleteRows_eq]
  simp only [restoreRows, apply_attempt Database.images, apply_attempt Database.history,
    apply_attempt masksHistory, apply_attempt moduleOrder, apply_attempt historyHash,
    apply_attempt undoHistory, apply_attempt undoMasksHistory, apply_attempt undoModuleOrder,
    getD_restoreModuleOrder?, ite_self, savedHistory, savedMasks, savedOrders, updateImage,
    insertHistory, insertMasks, setHistoryEnd]
  refine and_congr ?_ (and_congr (rowsKept_iff fun _ => imgid_of_mem_saved imgid)
    (and_congr (rowsKept_iff fun _ => imgid_of_mem_saved imgid)
      (and_congr ?_ (and_iff_left ⟨trivial, trivial, trivial⟩))))
  · cases ok.updateEnd <;> cases ok.deletes.images <;> cases ok.deletes.presetFlag <;>
      cases himage : db.images imgid <;> simp [himage] <;> grind [cases ImageRow]
  · cases ok.insertOrder <;> cases ok.deletes.moduleOrder <;>
      cases horder : db.moduleOrder imgid <;> simp [horder] <;> grind

theorem noneDone_iff {ok : RestoreOutcome} {snap : Snapshot} :
    noneDone ok imgid snap (deleteOnImage md5 ok.deletes imgid db) = true ↔
      NoneDone db ok imgid snap := by
  obtain ⟨hashes, hwrite⟩ := deleteOnImage_hashes imgid md5 ok.deletes db
  rw [hwrite, deleteRows_eq, noneDone, restoreModuleOrder?, savedOrders, ← savedOrders, NoneDone]
  match savedOrders db imgid snap.id with
  | [] => simp [and_assoc]
  | [order] => cases ok.deletes.moduleOrder <;> cases db.moduleOrder imgid <;> simp [and_assoc]
  | _ :: _ :: _ => simp [and_assoc]

theorem restore_outcome (md5 : Blob → Blob) (hclosed : c.saved = none) (ok : RestoreOutcome)
    (snap : Snapshot) :
    let deleted := deleteOnImage md5 ok.deletes imgid c.data
    let after := historySnapshotUndoRestore md5 ok c imgid snap
    after.data = restoreRows ok imgid snap deleted ∧
      (after.saved = none ↔
        (ok.begins = true → noneDone ok imgid snap deleted = true ∧ ok.commits = true)) := by
  intro deleted after
  have hdeleted : (dtHistoryDeleteOnImageExt md5 ok.deletes (c.exec "BEGIN TRANSACTION" ok.begins)
      imgid false).data = deleted := by
    show deleteOnImage md5 ok.deletes imgid (c.exec "BEGIN TRANSACTION" ok.begins).data = _
    rw [exec_begin, start_data]
  have hafter : after = ((c.exec "BEGIN TRANSACTION" ok.begins).run fun db =>
      restoreRows ok imgid snap (deleteOnImage md5 ok.deletes imgid db)).exec
        (if noneDone ok imgid snap deleted then "COMMIT" else "ROLLBACK_TRANSACTION")
        ok.commits := by
    rw [← hdeleted]
    rfl
  rw [hafter]
  exact transaction_outcome hclosed exec_rollbackTransaction _ ok.begins _ ok.commits

theorem restore_atomic_iff (hclosed : c.saved = none) (ok : RestoreOutcome) (snap : Snapshot) :
    Atomic c (historySnapshotUndoRestore md5 ok c imgid snap)
        (restoreSucceeded md5 ok c.data imgid snap) (restoreApplied md5 c.data imgid snap) ↔
      RestoreSafe md5 c.data ok imgid snap := by
  obtain ⟨hdata, hsaved⟩ := @restore_outcome c imgid md5 hclosed ok snap
  rw [atomic_iff hdata hsaved, RestoreSafe, ← restoreRows_eq_iff, noneDone_iff]
  refine and_congr_right fun hdone => ?_
  -- a call that closes its transaction has not succeeded
  have hfails : restoreSucceeded md5 ok c.data imgid snap = false := by
    cases hbegins : ok.begins with
    | false => simp [restoreSucceeded, hbegins]
    | true => simp [restoreSucceeded, (hdone hbegins).1.1]
  rw [hfails]
  rfl

end Atomic

end DTLite
