import DTLite.Common.HistorySnapshot
import DTLite.Develop.HistoryRoundTrip

/-!
# What a write of a history leaves alone

Reading an image's history into a develop, writing it back and deleting it touch the rows of this
image only, and depend on the history tables only.
-/

namespace DTLite

open Reasoning Database Function

def orderRow (list : List IopOrderEntry) : ModuleOrder where
  version := some (dtIopprGetIopOrderListKind list)
  iopList :=
    if dtIopprGetIopOrderListKind list = iopOrderCustom ∨ dtIopprHasMultipleInstances list then
      some (dtIopprSerializeTextIopOrderList list)
    else none

theorem dtIopprWriteIopOrderList_eq (db : Database) (list : List IopOrderEntry) (imgid : ImgId) :
    dtIopprWriteIopOrderList db list imgid =
      { db with moduleOrder := update db.moduleOrder imgid (some (orderRow list)) } :=
  rfl

theorem devWriteHistory_of_nil (inst : Installation) {dev : Develop} (h : dev.history = [])
    (db : Database) (imgid : ImgId) :
    devWriteHistory inst dev db imgid = cleanupHistory db imgid := by
  rw [devWriteHistory_eq, h]
  simp [itemRows, itemFormRows, insertHistory, insertMasks]

theorem dtDevReadHistoryExt_eq (inst : Installation) (presets : AutoPresets) (db : Database)
    {w : Workspace} {imgid : ImgId} (hid : imgid ≠ 0) (hiop : w.dev.iop ≠ []) :
    let read := readDevelop inst db { w with dev := dtIopprSetDefaultIopOrder db w.dev imgid } imgid
    ∃ flags, (dtDevReadHistoryExt inst presets db w imgid true).1 =
      dtHistoryHashWriteFromHistory inst.md5 (dtIopprWriteIopOrderList
        (devWriteHistory inst read.dev db imgid) read.dev.iopOrderList imgid) imgid flags := by
  intro read
  rw [dtDevReadHistoryExt, if_neg (not_or.mpr ⟨hid, hiop⟩)]
  exact ⟨_, rfl⟩

variable (md5 : Blob → Blob)

theorem deleteOnImage_eq (imgid : ImgId) (db : Database) :
    deleteOnImage md5 { currentHash := false } imgid db =
      { db with
        images := update db.images imgid
          ((db.images imgid).map fun _ => ⟨some 0, some 0, false⟩)
        history := db.history.filter fun row => row.imgid ≠ imgid
        masksHistory := db.masksHistory.filter fun row => row.imgid ≠ imgid
        moduleOrder := update db.moduleOrder imgid none
        historyHash := update db.historyHash imgid none } := by
  simp [deleteOnImage, attempt, deleteRows_eq]

namespace Database

/-- The image has the same history as before, and the same row. -/
structure Untouched (db db' : Database) (j : ImgId) : Prop where
  same : db'.SameEdit db j
  image : db'.images j = db.images j

theorem Untouched.refl (db : Database) (j : ImgId) : db.Untouched db j := ⟨SameEdit.refl db j, rfl⟩

theorem Untouched.trans {db db' db'' : Database} {j : ImgId} (h : db.Untouched db' j)
    (h' : db'.Untouched db'' j) : db.Untouched db'' j :=
  ⟨h'.same.trans h.same, h'.image.trans h.image⟩

theorem untouched_hashWrite (db : Database) (imgid : ImgId) (flags : HashFlags) (j : ImgId) :
    db.Untouched (dtHistoryHashWriteFromHistory md5 db imgid flags) j := by
  refine ⟨sameEdit_hashWrite md5 db imgid flags j, ?_⟩
  obtain ⟨hashes, heq⟩ := dtHistoryHashWriteFromHistory_eq md5 db imgid flags
  rw [heq]

section Others

variable (inst : Installation) (dev : Develop) (db : Database) {imgid j : ImgId} (hj : j ≠ imgid)
include hj

theorem untouched_updateImage (f : ImageRow → ImageRow) : db.Untouched (db.updateImage imgid f) j :=
  ⟨sameEdit_updateImage db hj f, update_of_ne hj _ _⟩

theorem untouched_writeIopOrder (list : List IopOrderEntry) :
    db.Untouched (dtIopprWriteIopOrderList db list imgid) j :=
  ⟨⟨rfl, rfl, update_of_ne hj _ _, rfl⟩, rfl⟩

theorem untouched_cleanupHistory : db.Untouched (cleanupHistory db imgid) j :=
  ⟨(sameEdit_deleteMasks _ hj).trans (sameEdit_deleteHistory db hj), rfl⟩

theorem untouched_devWriteHistory : db.Untouched (devWriteHistory inst dev db imgid) j := by
  rw [devWriteHistory_eq]
  apply (untouched_cleanupHistory db hj).trans
  have hrows : (cleanupHistory db imgid).Untouched
      ((cleanupHistory db imgid).insertHistory (itemRows inst dev imgid 0 dev.history)) j :=
    ⟨sameEdit_insertHistory _ hj fun _ hrow => (mem_itemRows hrow).1, rfl⟩
  exact hrows.trans ⟨sameEdit_insertMasks _ hj fun _ hrow => (mem_itemFormRows hrow).1, rfl⟩

theorem untouched_dtDevWriteHistoryExt : db.Untouched (dtDevWriteHistoryExt inst dev db imgid) j :=
  (((untouched_devWriteHistory inst dev db hj).trans (untouched_updateImage _ hj _)).trans
    (untouched_writeIopOrder _ hj _)).trans (untouched_hashWrite ..)

theorem untouched_dtDevReadHistoryExt (presets : AutoPresets) (w : Workspace) :
    db.Untouched (dtDevReadHistoryExt inst presets db w imgid true).1 j := by
  rw [dtDevReadHistoryExt]
  split
  · exact Untouched.refl db j
  · exact ((untouched_devWriteHistory inst _ db hj).trans (untouched_writeIopOrder _ hj _)).trans
      (untouched_hashWrite ..)

theorem untouched_deleteOnImage (md5 : Blob → Blob) :
    db.Untouched (deleteOnImage md5 { currentHash := false } imgid db) j := by
  rw [deleteOnImage_eq]
  refine ⟨⟨(sameEdit_deleteHistory db hj).history, (sameEdit_deleteMasks db hj).masks,
    update_of_ne hj _ _, ?_⟩, update_of_ne hj _ _⟩
  show (update db.images imgid _ j).bind _ = _
  rw [update_of_ne hj]
  rfl

end Others

/-- The history tables have the same rows, and the images the same `history_end`. -/
structure Agree (db db' : Database) : Prop where
  history : db.history = db'.history
  masks : db.masksHistory = db'.masksHistory
  moduleOrder : db.moduleOrder = db'.moduleOrder
  ends : ∀ j, (db.images j).map ImageRow.historyEnd = (db'.images j).map ImageRow.historyEnd

namespace Agree

variable {db db' db'' : Database}

theorem refl (db : Database) : Agree db db := ⟨rfl, rfl, rfl, fun _ => rfl⟩

section

variable (h : Agree db db')
include h

theorem symm : Agree db' db :=
  ⟨h.history.symm, h.masks.symm, h.moduleOrder.symm, fun j => (h.ends j).symm⟩

theorem trans (h' : Agree db' db'') : Agree db db'' :=
  ⟨h.history.trans h'.history, h.masks.trans h'.masks, h.moduleOrder.trans h'.moduleOrder,
    fun j => (h.ends j).trans (h'.ends j)⟩

theorem historyEnd (j : ImgId) : db.historyEnd j = db'.historyEnd j := by
  have hbind : ∀ db : Database, db.historyEnd j =
      ((db.images j).map ImageRow.historyEnd).bind id := by
    intro db
    rw [Option.bind_map]
    rfl
  rw [hbind, hbind, h.ends j]

theorem historyOf (j : ImgId) : db.historyOf j = db'.historyOf j := by
  rw [Database.historyOf, h.history]
  rfl

theorem masksOf (j : ImgId) : db.masksOf j = db'.masksOf j := by
  rw [Database.masksOf, h.masks]
  rfl

theorem sameEdit (j : ImgId) : db.SameEdit db' j :=
  ⟨h.historyOf j, h.masksOf j, congrFun h.moduleOrder j, h.historyEnd j⟩

end

theorem hashWrite (db : Database) (imgid : ImgId) (flags : HashFlags) :
    Agree (dtHistoryHashWriteFromHistory md5 db imgid flags) db := by
  obtain ⟨hashes, heq⟩ := dtHistoryHashWriteFromHistory_eq md5 db imgid flags
  rw [heq]
  exact ⟨rfl, rfl, rfl, fun _ => rfl⟩

section

variable (h : Agree db db')
include h

theorem hashWrites (md5 : Blob → Blob) (imgid : ImgId) (flags flags' : HashFlags) :
    Agree (dtHistoryHashWriteFromHistory md5 db imgid flags)
      (dtHistoryHashWriteFromHistory md5 db' imgid flags') :=
  ((hashWrite md5 db imgid flags).trans h).trans (hashWrite md5 db' imgid flags').symm

theorem writeIopOrder (list : List IopOrderEntry) (imgid : ImgId) :
    Agree (dtIopprWriteIopOrderList db list imgid) (dtIopprWriteIopOrderList db' list imgid) := by
  rw [dtIopprWriteIopOrderList_eq, h.moduleOrder]
  exact ⟨h.history, h.masks, rfl, h.ends⟩

theorem setHistoryEnd (imgid : ImgId) (end' : Option Int) :
    Agree (db.setHistoryEnd imgid end') (db'.setHistoryEnd imgid end') := by
  refine ⟨h.history, h.masks, h.moduleOrder, fun j => ?_⟩
  show (update db.images imgid _ j).map _ = (update db'.images imgid _ j).map _
  by_cases hj : j = imgid
  · have hends := h.ends j
    cases himage : db.images j <;> cases himage' : db'.images j <;> simp_all
  · rw [update_of_ne hj, update_of_ne hj]
    exact h.ends j

section

variable (inst : Installation)

theorem devWriteHistory (dev : Develop) (imgid : ImgId) :
    Agree (devWriteHistory inst dev db imgid) (devWriteHistory inst dev db' imgid) := by
  rw [devWriteHistory_eq, devWriteHistory_eq]
  refine ⟨?_, ?_, h.moduleOrder, h.ends⟩
  · show db.history.filter _ ++ _ = db'.history.filter _ ++ _
    rw [h.history]
  · show db.masksHistory.filter _ ++ _ = db'.masksHistory.filter _ ++ _
    rw [h.masks]

theorem dtDevWriteHistoryExt (dev : Develop) (imgid : ImgId) :
    Agree (dtDevWriteHistoryExt inst dev db imgid) (dtDevWriteHistoryExt inst dev db' imgid) :=
  (((h.devWriteHistory inst dev imgid).setHistoryEnd imgid _).writeIopOrder _ imgid).hashWrites ..

theorem readDevelop (w : Workspace) (imgid : ImgId) :
    readDevelop inst db w imgid = readDevelop inst db' w imgid := by
  have hrows : readHistoryRows inst db w imgid = readHistoryRows inst db' w imgid := by
    rw [readHistoryRows, readHistoryRows, historyByNum, historyByNum, h.historyOf, h.historyEnd]
  simp [DTLite.readDevelop, hrows, historyEndOr, h.historyEnd, dtMasksReadMasksHistory, masksByNum,
    h.masksOf]

theorem dtDevReadHistoryExt (presets : AutoPresets) (w : Workspace) (imgid : ImgId) :
    Agree (dtDevReadHistoryExt inst presets db w imgid true).1
        (dtDevReadHistoryExt inst presets db' w imgid true).1 ∧
      (dtDevReadHistoryExt inst presets db w imgid true).2 =
        (dtDevReadHistoryExt inst presets db' w imgid true).2 := by
  have horder : dtIopprSetDefaultIopOrder db w.dev imgid =
      dtIopprSetDefaultIopOrder db' w.dev imgid := by
    simp [dtIopprSetDefaultIopOrder, dtIopprGetIopOrderList, h.moduleOrder]
  rw [DTLite.dtDevReadHistoryExt, DTLite.dtDevReadHistoryExt]
  split
  · exact ⟨h, rfl⟩
  · have hread := h.readDevelop inst
      { w with dev := dtIopprSetDefaultIopOrder db w.dev imgid } imgid
    simp only [historyTable, prepareHistory, if_true]
    rw [← horder, ← hread]
    exact ⟨((h.devWriteHistory inst _ imgid).writeIopOrder _ imgid).hashWrites .., rfl⟩

end

end

end Agree

/-- The image has no rows, and its `history_end` is 0. -/
structure Blank (db : Database) (imgid : ImgId) : Prop where
  history : db.historyOf imgid = []
  masks : db.masksOf imgid = []
  historyEnd : db.historyEnd imgid = (db.images imgid).map fun _ => 0

theorem Blank.of_untouched {db db' : Database} {imgid : ImgId} (h : db.Blank imgid)
    (huntouched : db.Untouched db' imgid) : db'.Blank imgid :=
  ⟨huntouched.same.history.trans h.history, huntouched.same.masks.trans h.masks,
    by rw [huntouched.same.historyEnd, huntouched.image, h.historyEnd]⟩

theorem blank_deleteOnImage (imgid : ImgId) (db : Database) :
    (deleteOnImage md5 { currentHash := false } imgid db).Blank imgid := by
  rw [deleteOnImage_eq]
  refine ⟨db.historyOf_deleteHistory imgid, db.masksOf_deleteMasks imgid, ?_⟩
  simp only [historyEnd, update_self]
  cases db.images imgid <;> rfl

theorem Blank.agree_deleteOnImage {db : Database} {imgid : ImgId} (h : db.Blank imgid)
    (horder : db.moduleOrder imgid = none) (md5 : Blob → Blob) :
    Agree (deleteOnImage md5 { currentHash := false } imgid db) db := by
  rw [deleteOnImage_eq]
  refine ⟨?_, ?_, ?_, fun j => ?_⟩
  · rw [List.filter_eq_self]
    intro row hrow
    simpa using List.filter_eq_nil_iff.mp h.history row hrow
  · rw [List.filter_eq_self]
    intro row hrow
    simpa using List.filter_eq_nil_iff.mp h.masks row hrow
  · rw [← horder, update_eq_self]
  · by_cases hj : j = imgid
    · subst hj
      have hend := h.historyEnd
      rw [Database.historyEnd] at hend
      dsimp only
      rw [update_self]
      cases himage : db.images j with
      | none => rfl
      | some image =>
        rw [himage] at hend
        exact congrArg some hend.symm
    · dsimp only
      rw [update_of_ne hj]

end Database

end DTLite
