import DTLite.Common.HistoryMerge
import DTLite.Common.HistoryPaste
import DTLite.Common.Undo
import DTLite.Develop.HistoryFrame

/-!
# Styles

A style is a list of history items that is merged into the history of an image. There are two ways
to apply styles to a list of images, and they do not prepare the images alike.
-/

namespace DTLite

open Reasoning Database List

/-- What a snapshot of an image's history holds. -/
structure Edit (imgid : ImgId) where
  history : List HistoryRow
  masks : List MasksRow
  moduleOrder : Option ModuleOrder
  historyEnd : Option Int
  history_own : ∀ row ∈ history, row.imgid = imgid
  masks_own : ∀ row ∈ masks, row.imgid = imgid

-- `dt_history_snapshot_undo_create`, taken to lose nothing.
def Database.capture (db : Database) (imgid : ImgId) : Edit imgid where
  history := db.historyOf imgid
  masks := db.masksOf imgid
  moduleOrder := db.moduleOrder imgid
  historyEnd := db.historyEnd imgid
  history_own _ hrow := imgid_of_mem_historyOf db imgid hrow
  masks_own _ hrow := imgid_of_mem_masksOf db imgid hrow

-- `_history_snapshot_undo_restore`, taken to restore what was captured.
def Database.restore (db : Database) {imgid : ImgId} (edit : Edit imgid) : Database :=
  { (((db.deleteHistory imgid).insertHistory edit.history).deleteMasks imgid).insertMasks
      edit.masks with
    images := (db.setHistoryEnd imgid edit.historyEnd).images
    moduleOrder := Function.update db.moduleOrder imgid edit.moduleOrder }

/-- `dt_undo_lt_history_t`. -/
structure EditRecord where
  imgid : ImgId
  before : Edit imgid
  after : Edit imgid

-- `DT_UNDO_LT_HISTORY`.
def undoLtHistory : UInt32 := 128

/-- The rows of `data.style_items` have the columns of `main.history`, with the style for the image.
-/
structure Style where
  items : List HistoryRow
  iopList : Option Text

/-- What the functions find when they are called. -/
structure StyleSession where
  inst : Installation
  presets : AutoPresets
  -- what `dt_dev_init` and `dt_iop_load_modules_ext` make
  workspace : Workspace
  history_nil : workspace.dev.history = []
  iop_ne_nil : workspace.dev.iop ≠ []
  -- `dt_styles_get_id_by_name`
  styles : String → Option Style
  -- `dt_image_duplicate`, `none` for -1
  duplicate : Database → ImgId → Database × Option ImgId
  -- the image that is open in the darkroom
  current : Option ImgId
  -- `dt_dev_write_history(darktable.develop)`, in the darkroom
  writeDevelop : Database → Database
  -- `dt_dev_reload_history_items(darktable.develop)`
  reload : Database → Database
  writeDevelop_frame : ∀ (db : Database) (j : ImgId), current ≠ some j →
    db.Untouched (writeDevelop db) j
  reload_frame : ∀ (db : Database) (j : ImgId), current ≠ some j → db.Untouched (reload db) j
  -- `dt_get_wtime`
  now : Undo EditRecord → Rat

structure StyleRun where
  db : Database
  undo : Undo EditRecord

namespace StyleSession

variable (session : StyleSession)

-- "if current image in develop reload history".
def reloadOpen (imgid : ImgId) (db : Database) : Database :=
  if session.current = some imgid then session.reload db else db

-- `dt_history_delete_on_image_ext(imgid, FALSE)`.
def dtHistoryDeleteOnImageExt (db : Database) (imgid : ImgId) : Database :=
  let db := deleteOnImage session.inst.md5 { currentHash := false } imgid db
  let db := session.reloadOpen imgid db
  dtHistoryHashWriteFromHistory session.inst.md5 db imgid { current := true }

def recordEdit (undo : Undo EditRecord) (record : EditRecord) : Undo EditRecord :=
  let undo := dtUndoStartGroup undo undoLtHistory (session.now undo)
  let undo := dtUndoRecord undo undoLtHistory record (session.now undo)
  dtUndoEndGroup undo (session.now undo)

-- `dt_history_copy_and_paste_on_image(imgid, dest, FALSE, NULL, TRUE, TRUE)`.
def dtHistoryCopyAndPasteOnImage (s : StyleRun) (imgid dest : ImgId) : StyleRun :=
  if imgid = dest then s
  else
    let db := session.writeDevelop s.db
    let before := db.capture dest
    let db := dtIopprWriteIopOrderList db (dtIopprGetIopOrderList db imgid) dest
    let db := historyCopyAndPasteOnImageOverwrite [] true db imgid dest
    { db := session.reloadOpen dest db
      undo := session.recordEdit s.undo ⟨dest, before, db.capture dest⟩ }

-- "check if we should make a duplicate before applying style"; without one the code goes on with
-- -1, which is no image.
def duplicateImage (overwrite : Bool) (s : StyleRun) (imgid : ImgId) : StyleRun × ImgId :=
  let duplicate := session.duplicate s.db imgid
  let s := { s with db := duplicate.1 }
  match duplicate.2 with
  | none => (s, 0)
  | some newimgid =>
      (if overwrite then { s with db := session.dtHistoryDeleteOnImageExt s.db newimgid }
        else session.dtHistoryCopyAndPasteOnImage s imgid newimgid, newimgid)

end StyleSession

def dtStylesModuleOrderList (style : Style) : Option (List IopOrderEntry) :=
  style.iopList.bind dtIopprDeserializeTextIopOrderList

-- `operation < ?`, where `NULL` comes first.
def operationLt : Option String → Option String → Bool
  | none, some _ => true
  | some a, some b => a < b
  | _, none => false

-- `ORDER BY operation, multi_priority`.
def orderItems (items : List HistoryRow) : List HistoryRow :=
  items.insertionSort fun a b =>
    operationLt a.operation b.operation ∨
      a.operation = b.operation ∧ numLe a.multiPriority b.multiPriority

def itemModule (inst : Installation) (dev : Develop) (modSrc : ModuleRef) (loaded : IopModule)
    (opname : String) (item : HistoryRow) : IopModule :=
  let module :=
    { loaded with
      op := opname
      instanceNo := (dev.mods modSrc).instanceNo
      multiPriority := columnInt item.multiPriority
      iopOrder := 0
      enabled := columnInt item.enabled != 0
      multiName := item.multiName.getD ""
      -- `dt_develop_blend_legacy_params` gives the default params, if anything
      blendParams := blendOfRow inst loaded item }
  if isCurrent inst opname item then { module with params := item.opParams.getD [] }
  else if isOldFlip opname item then { module with params := module.defaultParams, enabled := true }
  else module

/-- With `modules_used`. -/
def dtStylesApplyStyleItem (inst : Installation) (s : Workspace × List ModuleRef)
    (item : HistoryRow) : Workspace × List ModuleRef :=
  match item.operation with
  | none => s
  | some opname =>
      match dtIopGetModuleByOpPriority s.1.dev opname (-1), (inst.iopSo opname).loadModule with
      | some modSrc, some loaded =>
          let r := dtHistoryMergeModuleIntoHistory inst s.1 none
            (itemModule inst s.1.dev modSrc loaded opname item) s.2 false
          (r.w, r.modulesUsed)
      | _, _ => s

namespace StyleSession

variable (session : StyleSession) (style : Style) (db : Database)

-- The style's own order is written before the history is read.
def writeStyleOrder (imgid : ImgId) : Database :=
  match dtStylesModuleOrderList style with
  | some iopList => dtIopprWriteIopOrderList db iopList imgid
  | none => db

-- `dt_dev_read_history_ext` on the new develop, with what it leaves in the library.
def readForStyle (imgid : ImgId) : Database × Workspace :=
  dtDevReadHistoryExt session.inst session.presets (writeStyleOrder style db imgid)
    session.workspace imgid true

def mergeStyle (w : Workspace) : Develop :=
  let w := { w with dev := dtDevPopHistoryItemsExt w.dev w.dev.historyEnd }
  ((orderItems style.items).foldl (dtStylesApplyStyleItem session.inst) (w, [])).1.dev

/-- The rest of `dt_styles_apply_to_image`, from "now deal with the history" on. -/
def styleImage (imgid : ImgId) : Database × EditRecord :=
  let read := session.readForStyle style db imgid
  let written := dtDevWriteHistoryExt session.inst (session.mergeStyle style read.2) read.1 imgid
  (session.reloadOpen imgid written, ⟨imgid, read.1.capture imgid, written.capture imgid⟩)

variable (name : String) (duplicate overwrite : Bool) (s : StyleRun)

def dtStylesApplyToImage (imgid : ImgId) : StyleRun :=
  match session.styles name with
  | none => s
  | some style =>
      let target := if duplicate then session.duplicateImage overwrite s imgid else (s, imgid)
      let styled := session.styleImage style target.1.db target.2
      { db := styled.1, undo := session.recordEdit target.1.undo styled.2 }

-- One image of the list in `dt_styles_apply_to_list`.
def applyOne (imgid : ImgId) :
    StyleRun :=
  let s := if duplicate then s
    else { s with db := session.dtHistoryDeleteOnImageExt s.db imgid }
  session.dtStylesApplyToImage name duplicate overwrite s imgid

-- One image of the list in `dt_multiple_styles_apply_to_list`.
def applyMultiple (names : List String) (duplicate overwrite : Bool) (s : StyleRun)
    (imgid : ImgId) : StyleRun :=
  let s := if overwrite && !duplicate then
      { s with db := session.dtHistoryDeleteOnImageExt s.db imgid }
    else s
  names.foldl (fun s name => session.dtStylesApplyToImage name duplicate overwrite s imgid) s

def inGroup (body : StyleRun → ImgId → StyleRun) (s : StyleRun) (list : List ImgId) : StyleRun :=
  let s := { s with undo := dtUndoStartGroup s.undo undoLtHistory (session.now s.undo) }
  let s := list.foldl body s
  { s with undo := dtUndoEndGroup s.undo (session.now s.undo) }

def dtStylesApplyToList (list : List ImgId) : StyleRun :=
  session.inGroup (session.applyOne name duplicate overwrite)
    { s with db := session.writeDevelop s.db } list

def dtMultipleStylesApplyToList (names : List String) (duplicate overwrite : Bool) (s : StyleRun)
    (list : List ImgId) : StyleRun :=
  let s := { s with db := session.writeDevelop s.db }
  if names = [] ∨ list = [] then s
  else session.inGroup (session.applyMultiple names duplicate overwrite) s list

variable {session : StyleSession} {style : Style} {db db' : Database} {imgid j : ImgId}

theorem reloadOpen_of_ne (h : session.current ≠ some imgid) (db : Database) :
    session.reloadOpen imgid db = db := if_neg h

theorem untouched_reloadOpen (h : session.current ≠ some j) (db : Database) (imgid : ImgId) :
    db.Untouched (session.reloadOpen imgid db) j := by
  rw [reloadOpen]
  split
  · exact session.reload_frame db j h
  · exact Untouched.refl db j

theorem untouched_delete (h : session.current ≠ some j) (hj : j ≠ imgid) (db : Database) :
    db.Untouched (session.dtHistoryDeleteOnImageExt db imgid) j :=
  ((untouched_deleteOnImage db hj _).trans (untouched_reloadOpen h _ imgid)).trans
    (untouched_hashWrite ..)

theorem untouched_writeStyleOrder (hj : j ≠ imgid) (style : Style) (db : Database) :
    db.Untouched (writeStyleOrder style db imgid) j := by
  rw [writeStyleOrder]
  split
  · exact untouched_writeIopOrder db hj _
  · exact Untouched.refl db j

theorem writeStyleOrder_eq (style : Style) (db : Database) (imgid : ImgId) :
    ∃ orders, writeStyleOrder style db imgid = { db with moduleOrder := orders } := by
  rw [writeStyleOrder]
  split
  · exact ⟨_, rfl⟩
  · exact ⟨db.moduleOrder, rfl⟩

theorem readDevelop_of_blank (inst : Installation) (w : Workspace)
    (hhistory : db.historyOf imgid = []) (hmasks : db.masksOf imgid = []) :
    readDevelop inst db w imgid =
      { w with
        dev :=
          { dtIopprResyncModulesOrder { w.dev with historyEnd := 0 } with
            historyEnd := historyEndOr db imgid 0
            forms := [] } } := by
  have hrows : db.historyByNum imgid = [] := by rw [historyByNum, hhistory]; rfl
  have hmaskRows : db.masksByNum imgid = [] := by rw [masksByNum, hmasks]; rfl
  rw [readDevelop, readHistoryRows, hrows, dtMasksReadMasksHistory, hmaskRows]
  rfl

theorem untouched_styleImage (h : session.current ≠ some j) (hj : j ≠ imgid) (style : Style)
    (db : Database) : db.Untouched (session.styleImage style db imgid).1 j :=
  (((untouched_writeStyleOrder hj style db).trans
    (untouched_dtDevReadHistoryExt _ _ hj _ _)).trans
      (untouched_dtDevWriteHistoryExt _ _ _ hj)).trans (untouched_reloadOpen h _ imgid)

/-! ## The same style in both ways -/

theorem agree_delete (h : session.current ≠ some imgid) (hblank : db.Blank imgid)
    (horder : db.moduleOrder imgid = none) :
    Agree (session.dtHistoryDeleteOnImageExt db imgid) db := by
  rw [dtHistoryDeleteOnImageExt, reloadOpen_of_ne h]
  exact (Agree.hashWrite ..).trans (hblank.agree_deleteOnImage horder _)

theorem agree_styleImage (h : session.current ≠ some imgid) (hagree : Agree db db')
    (style : Style) :
    Agree (session.styleImage style db imgid).1 (session.styleImage style db' imgid).1 := by
  have horder : Agree (writeStyleOrder style db imgid) (writeStyleOrder style db' imgid) := by
    rw [writeStyleOrder, writeStyleOrder]
    split
    · exact hagree.writeIopOrder _ imgid
    · exact hagree
  obtain ⟨hread, hdevelop⟩ :=
    horder.dtDevReadHistoryExt session.inst session.presets session.workspace imgid
  simp only [styleImage, reloadOpen_of_ne h, readForStyle]
  rw [hdevelop]
  exact hread.dtDevWriteHistoryExt session.inst _ imgid

variable (name : String)

theorem db_applyToImage (overwrite : Bool) (s : StyleRun) (imgid : ImgId) :
    (session.dtStylesApplyToImage name false overwrite s imgid).db =
      (session.styles name).elim s.db fun style => (session.styleImage style s.db imgid).1 := by
  rw [dtStylesApplyToImage]
  cases session.styles name <;> rfl

/-- An image that deleting its history does not change. -/
structure Unedited (session : StyleSession) (db : Database) (imgid : ImgId) : Prop where
  closed : session.current ≠ some imgid
  blank : db.Blank imgid
  moduleOrder : db.moduleOrder imgid = none

theorem Unedited.of_untouched (h : Unedited session db j) (huntouched : db.Untouched db' j) :
    Unedited session db' j :=
  ⟨h.closed, h.blank.of_untouched huntouched, huntouched.same.moduleOrder.trans h.moduleOrder⟩

theorem agree_applyOne {s s' : StyleRun} (hagree : Agree s.db s'.db)
    (h : Unedited session s.db imgid) :
    Agree (session.applyOne name false false s imgid).db
      (session.applyMultiple [name] false false s' imgid).db := by
  have hdelete := (agree_delete h.closed h.blank h.moduleOrder).trans hagree
  show Agree (session.dtStylesApplyToImage name false false _ imgid).db
    (session.dtStylesApplyToImage name false false s' imgid).db
  rw [db_applyToImage, db_applyToImage]
  cases session.styles name with
  | none => exact hdelete
  | some style => exact agree_styleImage h.closed hdelete style

theorem untouched_applyOne (h : session.current ≠ some j) (hj : j ≠ imgid) (name : String)
    (overwrite : Bool) (s : StyleRun) :
    s.db.Untouched (session.applyOne name false overwrite s imgid).db j := by
  show s.db.Untouched (session.dtStylesApplyToImage name false overwrite _ imgid).db j
  rw [db_applyToImage]
  cases session.styles name with
  | none => exact untouched_delete h hj s.db
  | some style => exact (untouched_delete h hj s.db).trans (untouched_styleImage h hj style _)

theorem agree_foldl (list : List ImgId) (hnodup : list.Nodup) :
    ∀ s s' : StyleRun, Agree s.db s'.db → (∀ imgid ∈ list, Unedited session s.db imgid) →
      Agree (list.foldl (session.applyOne name false false) s).db
        (list.foldl (session.applyMultiple [name] false false) s').db := by
  induction list with
  | nil => exact fun _ _ hagree _ => hagree
  | cons imgid list ih =>
    intro s s' hagree h
    obtain ⟨hnew, hnodup⟩ := nodup_cons.mp hnodup
    apply ih hnodup
    · exact agree_applyOne name hagree (h imgid mem_cons_self)
    · intro j hj
      have hunedited := h j (mem_cons_of_mem imgid hj)
      exact hunedited.of_untouched
        (untouched_applyOne hunedited.closed (ne_of_mem_of_not_mem hj hnew) name false s)

/-- The two ways leave the same histories in overwrite mode and for duplicates. In append mode they
do if the images have no history yet: one of the two ways deletes it, the other one does not. -/
theorem dtStylesApplyToList_same_multiple (session : StyleSession) (name : String)
    (duplicate overwrite : Bool) (s : StyleRun) (list : List ImgId)
    (h : overwrite = true ∨ duplicate = true ∨
      list.Nodup ∧ ∀ imgid ∈ list, Unedited session s.db imgid) (j : ImgId) :
    (session.dtStylesApplyToList name duplicate overwrite s list).db.SameEdit
      (session.dtMultipleStylesApplyToList [name] duplicate overwrite s list).db j := by
  rw [dtMultipleStylesApplyToList]
  by_cases hlist : list = []
  · rw [hlist]
    exact SameEdit.refl _ j
  rw [if_neg (not_or.mpr ⟨cons_ne_nil _ _, hlist⟩)]
  by_cases hmode : overwrite = true ∨ duplicate = true
  · -- the two loops have the same body
    have hbody : session.applyOne name duplicate overwrite =
        session.applyMultiple [name] duplicate overwrite := by
      funext s imgid
      cases duplicate <;> cases overwrite <;> simp_all [applyOne, applyMultiple]
    rw [dtStylesApplyToList, hbody]
    exact SameEdit.refl _ j
  · obtain ⟨hoverwrite, hduplicate⟩ := not_or.mp hmode
    obtain ⟨hnodup, hunedited⟩ := (h.resolve_left hoverwrite).resolve_left hduplicate
    rw [Bool.not_eq_true] at hoverwrite hduplicate
    subst hoverwrite hduplicate
    apply Agree.sameEdit
    apply agree_foldl name list hnodup
    · exact Agree.refl _
    · intro imgid hmem
      have himage := hunedited imgid hmem
      exact himage.of_untouched (session.writeDevelop_frame s.db imgid himage.closed)

end StyleSession

def sampleSession (style : Style) : StyleSession where
  inst := sampleInstallation
  presets := ⟨[], none⟩
  workspace := sampleWorkspace
  history_nil := rfl
  iop_ne_nil := cons_ne_nil _ _
  styles name := if name = "warm" then some style else none
  duplicate db _ := (db, none)
  current := none
  writeDevelop := id
  reload := id
  writeDevelop_frame db j _ := Untouched.refl db j
  reload_frame db j _ := Untouched.refl db j
  now _ := 0

def warmStyle : Style := ⟨[sampleRow 0 "colorin"], none⟩

-- An image that is not edited, and one that is and whose history is overwritten.
theorem dtStylesApplyToList_same_samples :
    let session := sampleSession warmStyle
    let s : StyleRun := ⟨sampleDb 0 [], dtUndoInit⟩
    let edited : StyleRun := ⟨sampleDb 1 [sampleRow 0 "exposure"], dtUndoInit⟩
    (session.dtStylesApplyToList "warm" false false s [1]).db.SameEdit
        (session.dtMultipleStylesApplyToList ["warm"] false false s [1]).db 1 ∧
      (session.dtStylesApplyToList "warm" false true edited [1]).db.SameEdit
        (session.dtMultipleStylesApplyToList ["warm"] false true edited [1]).db 1 := by
  intro session s edited
  have h : session.Unedited s.db 1 := ⟨Option.some_ne_none 1 ∘ Eq.symm, ⟨rfl, rfl, rfl⟩, rfl⟩
  constructor
  · apply session.dtStylesApplyToList_same_multiple "warm" false false s [1]
    exact .inr (.inr ⟨nodup_singleton 1, fun imgid hmem => mem_singleton.mp hmem ▸ h⟩)
  · exact session.dtStylesApplyToList_same_multiple "warm" false true edited [1] (.inl rfl) 1

/-- In append mode the history of the image is lost in one of the two ways. -/
theorem dtStylesApplyToList_loses_history :
    let s : StyleRun := ⟨sampleDb 1 [sampleRow 0 "exposure"], dtUndoInit⟩
    let single := (sampleSession warmStyle).dtStylesApplyToList "warm" false false s [1]
    let multiple := (sampleSession warmStyle).dtMultipleStylesApplyToList ["warm"] false false s [1]
    (single.db.historyOf 1).map HistoryRow.operation = [some "colorin"] ∧
      (multiple.db.historyOf 1).map HistoryRow.operation = [some "exposure", some "colorin"] := by
  decide +kernel

end DTLite
