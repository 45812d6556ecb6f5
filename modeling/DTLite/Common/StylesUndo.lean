import DTLite.Common.Styles
import DTLite.Common.UndoGroups

/-!
# Undoing a style

Applying a style records the history of the image as it is just before the new one is written. By
then the old history has been deleted, and reading it has written the module order.
-/

namespace DTLite

open Reasoning Database List Option Function StyleSession

-- The row of `main.module_order` of an image that has had its history deleted.
def styleOrder (style : Style) : ModuleOrder :=
  orderRow ((dtStylesModuleOrderList style).getD v30OrderList)

theorem orderRow_of_not_keepsText {list : List IopOrderEntry} (h : ¬ KeepsText list) :
    orderRow list = ⟨some iopOrderV30, none⟩ := by
  rw [orderRow, if_neg (by exact h), kind_of_not_keepsText h]

theorem orderRow_writeStyleOrder (style : Style) {db : Database} {imgid : ImgId}
    (horder : db.moduleOrder imgid = none) :
    orderRow (iopprResetIopOrder
      (dtIopprGetIopOrderList (writeStyleOrder style db imgid) imgid)) = styleOrder style := by
  rw [writeStyleOrder, styleOrder]
  cases hlist : dtStylesModuleOrderList style with
  | none =>
    rw [dtIopprGetIopOrderList, horder]
    decide
  | some list =>
    obtain ⟨text, -, htext⟩ := bind_eq_some_iff.mp hlist
    have hlist := OrderList.of_deserialize htext
    dsimp only [getD_some]
    by_cases hkeeps : KeepsText list
    · rw [dtIopprGetIopOrderList_write_orderList hlist hkeeps, hlist.numbered]
    · rw [dtIopprGetIopOrderList_write_plain hkeeps, orderRow_of_not_keepsText hkeeps]
      decide

/-- Nothing is left of the image's history, and its order is the one of the style, if there is a
style. -/
structure Emptied (session : StyleSession) (name : String) (db : Database) (imgid : ImgId) :
    Prop where
  history : db.historyOf imgid = []
  masks : db.masksOf imgid = []
  moduleOrder : db.moduleOrder imgid = (session.styles name).map styleOrder
  historyEnd : db.historyEnd imgid = some 0

namespace StyleSession

variable {session : StyleSession} {name : String} {style : Style} {db : Database} {imgid : ImgId}

theorem delete_blank (h : session.current ≠ some imgid) (db : Database) :
    (session.dtHistoryDeleteOnImageExt db imgid).Blank imgid ∧
      (session.dtHistoryDeleteOnImageExt db imgid).moduleOrder imgid = none ∧
      ((session.dtHistoryDeleteOnImageExt db imgid).images imgid).isSome =
        (db.images imgid).isSome := by
  rw [dtHistoryDeleteOnImageExt, reloadOpen_of_ne h]
  have hblank := blank_deleteOnImage session.inst.md5 imgid db
  have hhash := untouched_hashWrite session.inst.md5
    (deleteOnImage session.inst.md5 { currentHash := false } imgid db) imgid { current := true }
    imgid
  refine ⟨hblank.of_untouched hhash, ?_, ?_⟩
  · rw [hhash.same.moduleOrder]
    exact update_self ..
  · rw [hhash.image, deleteOnImage_eq]
    dsimp only
    rw [update_self, isSome_map]

/-- What is left of a deleted history once it has been read. -/
theorem readForStyle_blank (session : StyleSession) (hid : imgid ≠ 0) (hblank : db.Blank imgid)
    (horder : db.moduleOrder imgid = none) (style : Style) :
    (session.readForStyle style db imgid).1.Blank imgid ∧
      (session.readForStyle style db imgid).1.moduleOrder imgid = some (styleOrder style) ∧
      (session.readForStyle style db imgid).1.images = db.images := by
  have hrow := orderRow_writeStyleOrder style horder
  obtain ⟨orders, heq⟩ := writeStyleOrder_eq style db imgid
  rw [readForStyle, heq]
  rw [heq] at hrow
  generalize hdb₁ : { db with moduleOrder := orders } = db₁ at hrow
  have hblank₁ : db₁.Blank imgid := hdb₁ ▸ ⟨hblank.history, hblank.masks, hblank.historyEnd⟩
  have himages : db₁.images = db.images := hdb₁ ▸ rfl
  obtain ⟨flags, hread⟩ := dtDevReadHistoryExt_eq session.inst session.presets db₁ hid
    session.iop_ne_nil
  set w : Workspace :=
    { session.workspace with dev := dtIopprSetDefaultIopOrder db₁ session.workspace.dev imgid }
    with hw
  have hdevelop := readDevelop_of_blank session.inst w hblank₁.history hblank₁.masks
  have hhistory : (readDevelop session.inst db₁ w imgid).dev.history = [] := by
    rw [hdevelop]
    exact session.history_nil
  have hlist : (readDevelop session.inst db₁ w imgid).dev.iopOrderList =
      iopprResetIopOrder w.dev.iopOrderList := by
    rw [hdevelop]
    rfl
  have hwritten : devWriteHistory session.inst (readDevelop session.inst db₁ w imgid).dev db₁
      imgid = cleanupHistory db₁ imgid := devWriteHistory_of_nil session.inst hhistory db₁ imgid
  rw [hwritten, hlist] at hread
  have hhash := untouched_hashWrite session.inst.md5 (dtIopprWriteIopOrderList
    (cleanupHistory db₁ imgid) (iopprResetIopOrder w.dev.iopOrderList) imgid) imgid flags imgid
  rw [← hread] at hhash
  have hcleaned : (dtIopprWriteIopOrderList (cleanupHistory db₁ imgid)
      (iopprResetIopOrder w.dev.iopOrderList) imgid).Blank imgid :=
    ⟨db₁.historyOf_deleteHistory imgid, db₁.masksOf_deleteMasks imgid, hblank₁.historyEnd⟩
  refine ⟨hcleaned.of_untouched hhash, ?_, ?_⟩
  · rw [hhash.same.moduleOrder, dtIopprWriteIopOrderList_eq]
    dsimp only
    rw [update_self, ← hrow]
    show some (orderRow (iopprResetIopOrder (iopprResetIopOrder (iopprResetIopOrder _)))) = _
    rw [iopprResetIopOrder_idem, iopprResetIopOrder_idem]
  · obtain ⟨hashes, hhashes⟩ := dtHistoryHashWriteFromHistory_eq session.inst.md5
      (dtIopprWriteIopOrderList (cleanupHistory db₁ imgid)
        (iopprResetIopOrder w.dev.iopOrderList) imgid) imgid flags
    rw [hread, hhashes]
    exact himages

/-- What undo has to go back to is gone when it is recorded. -/
theorem emptied_before (hid : imgid ≠ 0) (hclosed : session.current ≠ some imgid)
    (himage : (db.images imgid).isSome) (hstyle : session.styles name = some style) :
    Emptied session name
      (session.readForStyle style (session.dtHistoryDeleteOnImageExt db imgid) imgid).1 imgid := by
  obtain ⟨hblank, horder, hsome⟩ := delete_blank hclosed db
  obtain ⟨hread, hrow, himages⟩ := readForStyle_blank session hid hblank horder style
  refine ⟨hread.history, hread.masks, ?_, ?_⟩
  · rw [hrow, hstyle, map_some]
  · obtain ⟨image, himage⟩ := isSome_iff_exists.mp (hsome.trans himage)
    rw [hread.historyEnd, himages, himage, map_some]

end StyleSession

/-! ## Going back to what was recorded -/

section Restore

variable (db : Database) {imgid j : ImgId} (edit : Edit imgid)

theorem restore_history : (db.restore edit).historyOf imgid = edit.history := by
  show ((db.deleteHistory imgid).insertHistory edit.history).historyOf imgid = _
  rw [historyOf_insertHistory _ _ edit.history_own, historyOf_deleteHistory, nil_append]

theorem restore_masks : (db.restore edit).masksOf imgid = edit.masks := by
  show ((db.deleteMasks imgid).insertMasks edit.masks).masksOf imgid = _
  rw [masksOf_insertMasks _ _ edit.masks_own, masksOf_deleteMasks, nil_append]

theorem untouched_restore (hj : j ≠ imgid) : db.Untouched (db.restore edit) j := by
  have hhistory := (sameEdit_insertHistory (db.deleteHistory imgid) hj edit.history_own).trans
    (sameEdit_deleteHistory db hj)
  have hmasks := (sameEdit_insertMasks (db.deleteMasks imgid) hj edit.masks_own).trans
    (sameEdit_deleteMasks db hj)
  have himage := untouched_updateImage db hj fun image =>
    { image with historyEnd := edit.historyEnd }
  exact ⟨⟨hhistory.history, hmasks.masks, update_of_ne hj _ _, himage.same.historyEnd⟩,
    himage.image⟩

end Restore

/-- A record that goes back to the emptied image. -/
structure EditRecord.Empties (session : StyleSession) (name : String) (record : EditRecord) :
    Prop where
  history : record.before.history = []
  masks : record.before.masks = []
  moduleOrder : record.before.moduleOrder = (session.styles name).map styleOrder
  historyEnd : record.before.historyEnd = some 0

-- `dt_history_snapshot_undo_pop`, for undo.
def undoEdit (db : Database) (item : UndoItem EditRecord) : Database :=
  match item.data with
  | some record => db.restore record.before
  | none => db

section Undone

variable {session : StyleSession} {name : String} {db db' : Database} {imgid : ImgId}

theorem Emptied.of_untouched (h : Emptied session name db imgid)
    (huntouched : db.Untouched db' imgid) : Emptied session name db' imgid :=
  ⟨huntouched.same.history.trans h.history, huntouched.same.masks.trans h.masks,
    huntouched.same.moduleOrder.trans h.moduleOrder,
    huntouched.same.historyEnd.trans h.historyEnd⟩

theorem EditRecord.Empties.restore {record : EditRecord} (h : record.Empties session name)
    (himage : (db.images record.imgid).isSome) :
    Emptied session name (db.restore record.before) record.imgid := by
  refine ⟨?_, ?_, ?_, ?_⟩
  · rw [restore_history, h.history]
  · rw [restore_masks, h.masks]
  · exact (update_self ..).trans h.moduleOrder
  · obtain ⟨image, himage⟩ := isSome_iff_exists.mp himage
    show (db.setHistoryEnd record.imgid record.before.historyEnd).historyEnd record.imgid = _
    rw [historyEnd_setHistoryEnd, himage, h.historyEnd, bind_some]

theorem isSome_images_undoEdit (db : Database) (item : UndoItem EditRecord) (imgid : ImgId) :
    ((undoEdit db item).images imgid).isSome = (db.images imgid).isSome := by
  rw [undoEdit]
  cases item.data with
  | none => rfl
  | some record =>
    show (update db.images record.imgid _ imgid).isSome = _
    by_cases himgid : imgid = record.imgid
    · rw [himgid, update_self, isSome_map]
    · rw [update_of_ne himgid]

/-- One record of the image is enough, whatever is undone before and after it. -/
theorem emptied_foldl_undoEdit (items : List (UndoItem EditRecord)) :
    ∀ db : Database, (db.images imgid).isSome →
      (∀ item ∈ items, ∀ record, item.data = some record → record.imgid = imgid →
        record.Empties session name) →
      (Emptied session name db imgid ∨
        ∃ item ∈ items, ∃ record, item.data = some record ∧ record.imgid = imgid) →
      Emptied session name (items.foldl undoEdit db) imgid := by
  induction items with
  | nil =>
    intro db _ _ h
    exact h.resolve_right fun ⟨_, hmem, _⟩ => absurd hmem not_mem_nil
  | cons item items ih =>
    intro db himage hempties h
    apply ih
    · rw [isSome_images_undoEdit]
      exact himage
    · exact fun item' hmem => hempties item' (mem_cons_of_mem item hmem)
    · cases hdata : item.data with
      | none =>
        have hsame : undoEdit db item = db := by rw [undoEdit, hdata]
        rw [hsame]
        refine h.imp_right fun ⟨item', hmem, record, hrecord, hid⟩ => ?_
        rcases mem_cons.mp hmem with rfl | hmem
        · cases hdata.symm.trans hrecord
        · exact ⟨item', hmem, record, hrecord, hid⟩
      | some record =>
        have hrestore : undoEdit db item = db.restore record.before := by rw [undoEdit, hdata]
        rw [hrestore]
        by_cases hid : record.imgid = imgid
        · left
          have hrecord := hempties item mem_cons_self record hdata hid
          subst hid
          exact hrecord.restore himage
        · refine h.imp (fun h => h.of_untouched (untouched_restore db _ (Ne.symm hid))) ?_
          rintro ⟨item', hmem, record', hrecord, hid'⟩
          rcases mem_cons.mp hmem with rfl | hmem
          · cases hdata.symm.trans hrecord
            exact absurd hid' hid
          · exact ⟨item', hmem, record', hrecord, hid'⟩

end Undone

/-! ## The loop over the images -/

/-- In the middle of the list: the records of the image go back to the emptied image, and there is
one if it has had its turn and the style exists. -/
structure Looping (session : StyleSession) (name : String) (blocks : List (UndoBlock EditRecord))
    (imgid : ImgId) (done : Prop) (inner : List (Option EditRecord × Rat)) (s : StyleRun) :
    Prop where
  bracketed : ∃ firstTs, s.undo.Bracketed ⟨blocks, [], some ⟨undoLtHistory, firstTs, inner, 0⟩⟩
  image : (s.db.images imgid).isSome
  empties : ∀ x ∈ inner, ∀ record, x.1 = some record → record.imgid = imgid →
    record.Empties session name
  emptied : done → Emptied session name s.db imgid ∨
    ∃ x ∈ inner, ∃ record, x.1 = some record ∧ record.imgid = imgid

namespace StyleSession

variable {session : StyleSession} {name : String} {blocks : List (UndoBlock EditRecord)}
variable {imgid i : ImgId} {done : Prop} {inner : List (Option EditRecord × Rat)} {s : StyleRun}
  {redo : List (UndoBlock EditRecord)} {undo : Undo EditRecord}

theorem groupIndent_pos
    {group : OpenGroup EditRecord} (h : undo.Bracketed ⟨blocks, redo, some group⟩) :
    0 < undo.groupIndent := by
  have hindent : undo.groupIndent = (group.depth : Int) + 1 := h.groupIndent
  omega

theorem bracketed_recordEdit (session : StyleSession) {firstTs : Rat}
    (h : undo.Bracketed ⟨blocks, [], some ⟨undoLtHistory, firstTs, inner, 0⟩⟩)
    (record : EditRecord) :
    ∃ ts, (session.recordEdit undo record).Bracketed
      ⟨blocks, [], some ⟨undoLtHistory, firstTs, (some record, ts) :: inner, 0⟩⟩ := by
  have hstart := h.startGroup (show undoLtHistory ≠ undoNone by decide) (session.now undo)
  have hrecord : ∀ ts, (dtUndoRecord (dtUndoStartGroup undo undoLtHistory (session.now undo))
      undoLtHistory record ts).Bracketed
        ⟨blocks, [], some ⟨undoLtHistory, firstTs, (some record, ts) :: inner, 1⟩⟩ :=
    hstart.record (.inr hstart.group.symm) record
  exact ⟨_, (hrecord _).endGroup (groupIndent_pos (hrecord _)) _⟩

theorem isSome_images_styleImage (hid : imgid ≠ 0) (hclosed : session.current ≠ some imgid)
    {db : Database} (himage : (db.images imgid).isSome) (style : Style) :
    ((session.styleImage style (session.dtHistoryDeleteOnImageExt db imgid) imgid).1.images
      imgid).isSome := by
  obtain ⟨hblank, horder, hsome⟩ := delete_blank hclosed db
  obtain ⟨-, -, himages⟩ := readForStyle_blank session hid hblank horder style
  obtain ⟨image, himage⟩ := isSome_iff_exists.mp (hsome.trans himage)
  rw [styleImage, reloadOpen_of_ne hclosed]
  obtain ⟨-, -, hend⟩ := @dtDevWriteHistoryExt_spec session.inst
    (session.mergeStyle style (session.readForStyle style
      (session.dtHistoryDeleteOnImageExt db imgid) imgid).2) imgid
    (session.readForStyle style (session.dtHistoryDeleteOnImageExt db imgid) imgid).1
  rw [himages, himage] at hend
  obtain ⟨row, hrow, -⟩ := bind_eq_some_iff.mp hend
  rw [hrow]
  rfl

theorem looping_of_none (hclosed : session.current ≠ some imgid)
    (hstyle : session.styles name = none) (h : Looping session name blocks imgid done inner s) :
    Looping session name blocks imgid (done ∨ imgid = i) inner
      { s with db := session.dtHistoryDeleteOnImageExt s.db i } := by
  by_cases hi : imgid = i
  · subst hi
    obtain ⟨hblank, horder, hsome⟩ := delete_blank hclosed s.db
    obtain ⟨image, himage⟩ := isSome_iff_exists.mp (hsome.trans h.image)
    refine ⟨h.bracketed, hsome.trans h.image, h.empties, fun _ => .inl ?_⟩
    refine ⟨hblank.history, hblank.masks, ?_, ?_⟩
    · rw [hstyle]
      exact horder
    · rw [hblank.historyEnd, himage, map_some]
  · have huntouched := untouched_delete hclosed hi s.db
    refine ⟨h.bracketed, ?_, h.empties, fun hdone => ?_⟩
    · rw [huntouched.image]
      exact h.image
    · exact (h.emptied (hdone.resolve_right hi)).imp_left fun h => h.of_untouched huntouched

theorem looping_of_some (hid : imgid ≠ 0) (hclosed : session.current ≠ some imgid) {style : Style}
    (hstyle : session.styles name = some style)
    (h : Looping session name blocks imgid done inner s) :
    let styled := session.styleImage style (session.dtHistoryDeleteOnImageExt s.db i) i
    ∃ ts, Looping session name blocks imgid (done ∨ imgid = i) ((some styled.2, ts) :: inner)
      { db := styled.1, undo := session.recordEdit s.undo styled.2 } := by
  intro styled
  obtain ⟨firstTs, hbracketed⟩ := h.bracketed
  obtain ⟨ts, hrecord⟩ := bracketed_recordEdit session hbracketed styled.2
  have huntouched : imgid ≠ i → s.db.Untouched styled.1 imgid := fun hi =>
    (untouched_delete hclosed hi s.db).trans (untouched_styleImage hclosed hi style _)
  have hempties : i = imgid → styled.2.Empties session name := by
    rintro rfl
    have hbefore := emptied_before hid hclosed h.image hstyle
    exact ⟨hbefore.history, hbefore.masks, hbefore.moduleOrder, hbefore.historyEnd⟩
  refine ⟨ts, ⟨firstTs, hrecord⟩, ?_, ?_, ?_⟩
  · by_cases hi : imgid = i
    · subst hi
      exact isSome_images_styleImage hid hclosed h.image style
    · rw [(huntouched hi).image]
      exact h.image
  · intro x hx record hrecord himgid
    rcases mem_cons.mp hx with rfl | hx
    · cases hrecord
      exact hempties himgid
    · exact h.empties x hx record hrecord himgid
  · intro hdone
    by_cases hi : imgid = i
    · exact .inr ⟨_, mem_cons_self, styled.2, rfl, hi.symm⟩
    · apply (h.emptied (hdone.resolve_right hi)).imp
      · exact fun h => h.of_untouched (huntouched hi)
      · exact fun ⟨x, hx, hrecord⟩ => ⟨x, mem_cons_of_mem _ hx, hrecord⟩

theorem looping_applyOne (hid : imgid ≠ 0) (hclosed : session.current ≠ some imgid)
    (overwrite : Bool) (h : Looping session name blocks imgid done inner s) (i : ImgId) :
    ∃ inner', Looping session name blocks imgid (done ∨ imgid = i) inner'
      (session.applyOne name false overwrite s i) := by
  cases hstyle : session.styles name with
  | none =>
    refine ⟨inner, ?_⟩
    simp only [applyOne, dtStylesApplyToImage, hstyle]
    exact looping_of_none hclosed hstyle h
  | some style =>
    obtain ⟨ts, hlooping⟩ := looping_of_some (i := i) hid hclosed hstyle h
    refine ⟨(some (session.styleImage style (session.dtHistoryDeleteOnImageExt s.db i) i).2, ts) ::
      inner, ?_⟩
    simp only [applyOne, dtStylesApplyToImage, hstyle]
    exact hlooping

theorem looping_foldl (hid : imgid ≠ 0) (hclosed : session.current ≠ some imgid)
    (overwrite : Bool) (list : List ImgId) :
    ∀ (s : StyleRun) (done : Prop) (inner : List (Option EditRecord × Rat)),
      Looping session name blocks imgid done inner s →
      ∃ inner', Looping session name blocks imgid (done ∨ imgid ∈ list) inner'
        (list.foldl (session.applyOne name false overwrite) s) := by
  induction list with
  | nil =>
    intro s done inner h
    exact ⟨inner, h.bracketed, h.image, h.empties,
      fun hdone => h.emptied (hdone.resolve_right not_mem_nil)⟩
  | cons i list ih =>
    intro s done inner h
    obtain ⟨inner₁, h₁⟩ := looping_applyOne hid hclosed overwrite h i
    obtain ⟨inner', h'⟩ := ih _ _ _ h₁
    refine ⟨inner', h'.bracketed, h'.image, h'.empties, fun hdone => h'.emptied ?_⟩
    rw [mem_cons] at hdone
    exact or_assoc.mpr hdone

-- `dt_undo_do_undo` after the call.
def undoApplied (filter : UInt32) (s : StyleRun) : Database :=
  (dtUndoDoUndo s.undo filter).2.foldl undoEdit s.db

/-- However many images are in the list, undo leaves the image without a history. -/
theorem emptied_undoApplied (hid : imgid ≠ 0) (hclosed : session.current ≠ some imgid)
    (himage : (s.db.images imgid).isSome)
    (hundo : s.undo.Bracketed ⟨blocks, redo, none⟩) {filter : UInt32}
    (hfilter : (undoLtHistory &&& filter != 0) = true) (name : String) (overwrite : Bool)
    {list : List ImgId} (hmem : imgid ∈ list) :
    Emptied session name
      (undoApplied filter (session.dtStylesApplyToList name false overwrite s list)) imgid := by
  have hstart := hundo.startGroup (show undoLtHistory ≠ undoNone by decide) (session.now s.undo)
  have hlooping : Looping session name blocks imgid False []
      ⟨session.writeDevelop s.db, dtUndoStartGroup s.undo undoLtHistory (session.now s.undo)⟩ := by
    refine ⟨⟨_, hstart⟩, ?_, fun x hx => absurd hx not_mem_nil, False.elim⟩
    rw [(session.writeDevelop_frame s.db imgid hclosed).image]
    exact himage
  obtain ⟨inner, hend⟩ := looping_foldl hid hclosed overwrite list _ _ _ hlooping
  obtain ⟨firstTs, hbracketed⟩ := hend.bracketed
  have hended := hbracketed.endGroup (groupIndent_pos hbracketed)
  rw [undoApplied, dtStylesApplyToList, inGroup, Undo.Bracketed.undo_called (hended _) hfilter]
  apply emptied_foldl_undoEdit
  · exact hend.image
  · intro item hitem record hrecord
    obtain ⟨x, hx, rfl⟩ := mem_map.mp hitem
    exact hend.empties x hx record hrecord
  · refine (hend.emptied (.inr hmem)).imp_right ?_
    rintro ⟨x, hx, record, hrecord⟩
    exact ⟨_, mem_map_of_mem hx, record, hrecord⟩

/-- Undo gives an image back what it had before the style was applied exactly if it had no history
and the module order that applying the style leaves. -/
theorem undo_dtStylesApplyToList_restores_iff (session : StyleSession) (name : String)
    (overwrite : Bool) (s : StyleRun) (list : List ImgId) {imgid : ImgId} (hmem : imgid ∈ list)
    (hid : imgid ≠ 0) (himage : (s.db.images imgid).isSome)
    (hclosed : session.current ≠ some imgid) {blocks redo : List (UndoBlock EditRecord)}
    (hundo : s.undo.Bracketed ⟨blocks, redo, none⟩) {filter : UInt32}
    (hfilter : (undoLtHistory &&& filter != 0) = true) :
    (undoApplied filter (session.dtStylesApplyToList name false overwrite s list)).SameEdit s.db
        imgid ↔
      s.db.Blank imgid ∧ s.db.moduleOrder imgid = (session.styles name).map styleOrder := by
  have h := emptied_undoApplied hid hclosed himage hundo hfilter name overwrite hmem
  obtain ⟨image, himage⟩ := isSome_iff_exists.mp himage
  constructor
  · intro hsame
    refine ⟨⟨hsame.history.symm.trans h.history, hsame.masks.symm.trans h.masks, ?_⟩,
      hsame.moduleOrder.symm.trans h.moduleOrder⟩
    rw [← hsame.historyEnd, h.historyEnd, himage, map_some]
  · intro ⟨hblank, horder⟩
    refine ⟨h.history.trans hblank.history.symm, h.masks.trans hblank.masks.symm,
      h.moduleOrder.trans horder.symm, ?_⟩
    rw [h.historyEnd, hblank.historyEnd, himage, map_some]

end StyleSession

-- An image that is not edited, but has been opened in the darkroom.
def openedDb : Database :=
  { sampleDb 0 [] with moduleOrder := fun _ => some ⟨some iopOrderV30, none⟩ }

theorem undo_dtStylesApplyToList_restores_opened :
    (StyleSession.undoApplied undoLtHistory ((sampleSession warmStyle).dtStylesApplyToList "warm"
      false true ⟨openedDb, dtUndoInit⟩ [1])).SameEdit openedDb 1 := by
  have hblank : openedDb.Blank 1 := ⟨rfl, rfl, rfl⟩
  have horder : styleOrder warmStyle = ⟨some iopOrderV30, none⟩ := by decide +kernel
  rw [undo_dtStylesApplyToList_restores_iff (sampleSession warmStyle) "warm" true
    ⟨openedDb, dtUndoInit⟩ [1] mem_cons_self (by decide) rfl (some_ne_none 1 ∘ Eq.symm)
    Undo.Bracketed.init (by decide)]
  exact ⟨hblank, congrArg some horder.symm⟩

/-- Undo leaves an image that had a history without one. -/
theorem undo_dtStylesApplyToList_loses_history :
    let s : StyleRun := ⟨sampleDb 1 [sampleRow 0 "exposure"], dtUndoInit⟩
    let undone := undoApplied undoLtHistory
      ((sampleSession warmStyle).dtStylesApplyToList "warm" false false s [1])
    (s.db.historyOf 1).map HistoryRow.operation = [some "exposure"] ∧
      undone.historyOf 1 = [] ∧ undone.historyEnd 1 = some 0 := by
  decide +kernel

end DTLite
