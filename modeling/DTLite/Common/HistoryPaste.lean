import DTLite.Develop.LoadedRows

/-!
# Pasting a history over another

The overwriting paste of all modules copies the rows of the source by SQL, but for those of some
operations, and copies `history_end` as a number.
-/

namespace DTLite

open Reasoning List Database

variable (db : Database) (imgid dest : ImgId)

-- `DELETE` and `UPDATE` at the start: the destination loses its history.
def clearForPaste : Database :=
  ((db.deleteHistory dest).deleteMasks dest).resetImage dest

/-- `operations` are those whose flags say to skip them; `'@'` stands in for an empty list. -/
def skipModules (operations : List String) (copyFull : Bool) : List String :=
  if copyFull ∨ operations = [] then ["@"] else operations

variable (skip : List String)

-- `operation NOT IN (…)`, not true of `NULL`.
def isCopied (row : HistoryRow) : Bool :=
  row.operation.any fun operation => !skip.contains operation

-- `SELECT num FROM history WHERE imgid = ? AND operation IN (…)`.
def skippedNums : List (Option Int) :=
  ((db.historyOf imgid).filter fun row => row.operation.any skip.contains).map HistoryRow.num

def copyHistory : Database :=
  db.insertHistory
    (((db.historyByNum imgid).filter (isCopied skip)).map fun row => { row with imgid := dest })

def copyMasks : Database :=
  db.insertMasks
    (((db.masksOf imgid).filter fun row => numNotIn row.num (skippedNums db imgid skip)).map
      fun row => { row with imgid := dest })

-- `INSERT OR REPLACE INTO main.module_order … SELECT`.
def copyModuleOrder : Database :=
  match db.moduleOrder imgid with
  | some order => { db with moduleOrder := Function.update db.moduleOrder dest (some order) }
  | none => db

-- The hashes, except that of the mipmaps.
def copyHashes : Database :=
  { db with
    historyHash := Function.update db.historyHash dest
      ((db.historyHash imgid).map fun row => { row with mipmapHash := none }) }

/-- Where no operations have been selected. -/
def historyCopyAndPasteOnImageOverwrite (operations : List String) (copyFull : Bool) (db : Database)
    (imgid dest : ImgId) : Database :=
  let skip := skipModules operations copyFull
  let db := clearForPaste db dest
  let db := copyHistory db imgid dest skip
  let db := copyMasks db imgid dest skip
  let db := db.setHistoryEnd dest (some (columnInt (db.historyEnd imgid)))
  let db := copyModuleOrder db imgid dest
  copyHashes db imgid dest

section Pasted

variable {operations : List String} {copyFull : Bool} {db : Database} {imgid dest : ImgId}

theorem copyModuleOrder_eq (db : Database) (imgid dest : ImgId) :
    ∃ orders, copyModuleOrder db imgid dest = { db with moduleOrder := orders } := by
  unfold copyModuleOrder
  split
  · exact ⟨_, rfl⟩
  · exact ⟨db.moduleOrder, rfl⟩

/-- The destination has the copied rows of the source, in their order, and its `history_end`. -/
theorem paste_spec (hne : imgid ≠ dest) (himage : (db.images dest).isSome) :
    let pasted := historyCopyAndPasteOnImageOverwrite operations copyFull db imgid dest
    pasted.historyByNum dest =
        ((db.historyByNum imgid).filter (isCopied (skipModules operations copyFull))).map
          (fun row => { row with imgid := dest }) ∧
      pasted.historyEnd dest = some (columnInt (db.historyEnd imgid)) := by
  set skip := skipModules operations copyFull with hskip
  set cleared := clearForPaste db dest with hcleared
  have hsource : cleared.historyByNum imgid = db.historyByNum imgid :=
    congrArg (orderByNum HistoryRow.num) (sameEdit_deleteHistory db hne).history
  have hend : cleared.historyEnd imgid = db.historyEnd imgid :=
    (sameEdit_updateImage _ hne _).historyEnd
  set copied := ((db.historyByNum imgid).filter (isCopied skip)).map
    (fun row => ({ row with imgid := dest } : HistoryRow)) with hcopied
  obtain ⟨orders, horders⟩ := copyModuleOrder_eq
    (setHistoryEnd (copyMasks (copyHistory cleared imgid dest skip) imgid dest skip) dest
      (some (columnInt (cleared.historyEnd imgid)))) imgid dest
  intro pasted
  have hpasted : pasted = copyHashes _ imgid dest := congrArg (copyHashes · imgid dest) horders
  have hrows : pasted.historyOf dest = copied := by
    rw [hpasted]
    show (cleared.insertHistory (((cleared.historyByNum imgid).filter (isCopied skip)).map
      _)).historyOf dest = copied
    rw [hsource, historyOf_insertHistory cleared dest]
    · exact congrArg (· ++ copied) (historyOf_deleteHistory db dest)
    · intro row hrow
      obtain ⟨r, _, rfl⟩ := mem_map.mp hrow
      rfl
  refine ⟨?_, ?_⟩
  · have hsorted : copied.Pairwise fun a b => numLe a.num b.num :=
      pairwise_map.mpr
        ((orderByNum_sorted HistoryRow.num (db.historyOf imgid)).filter _)
    rw [historyByNum, hrows, orderByNum_of_sorted hsorted]
  · rw [hpasted]
    show (setHistoryEnd _ dest
      (some (columnInt (cleared.historyEnd imgid)))).historyEnd dest = _
    have hsome : (copyMasks (copyHistory cleared imgid dest skip) imgid dest skip).images dest =
        (db.images dest).map _ := Function.update_self ..
    obtain ⟨image, himage⟩ := Option.isSome_iff_exists.mp himage
    rw [historyEnd_setHistoryEnd, hsome, himage, hend]
    rfl

end Pasted

/-! ## What is active in the destination -/

/-- No active row of the source is skipped, or all the rows above `history_end` are. Without a
`history_end` all rows of the source are active, and none in the destination. -/
def PasteKeepsActive (inst : Installation) (dev : Develop) (skip : List String) (db : Database)
    (imgid : ImgId) : Prop :=
  let rows := loadableRows inst dev db imgid
  let historyEnd := (columnInt (db.historyEnd imgid)).toNat
  if db.historyEnd imgid = none then ∀ row ∈ rows, ¬ isCopied skip row
  else
    (∀ row ∈ rows.take historyEnd, isCopied skip row) ∨
      ∀ row ∈ rows.drop historyEnd, ¬ isCopied skip row

instance decidablePasteKeepsActive (inst : Installation) (dev : Develop) (skip : List String)
    (db : Database) (imgid : ImgId) : Decidable (PasteKeepsActive inst dev skip db imgid) :=
  inferInstanceAs (Decidable (ite ..))

section Active

variable {inst : Installation} {dev : Develop} {db : Database} {imgid : ImgId} {skip : List String}

theorem take_copied_eq_iff :
    ((loadableRows inst dev db imgid).filter (isCopied skip)).take
        (columnInt (db.historyEnd imgid)).toNat =
      (activeRows inst dev db imgid).filter (isCopied skip) ↔
      PasteKeepsActive inst dev skip db imgid := by
  rw [activeRows, PasteKeepsActive, historyEndOr]
  cases hend : db.historyEnd imgid with
  | none =>
    show take 0 _ = (take (loadableRows inst dev db imgid).length _).filter _ ↔ _
    rw [if_pos rfl, take_zero, take_length, eq_comm, filter_eq_nil_iff]
  | some historyEnd =>
    exact take_filter_eq_filter_take_iff

-- Both sides are prefixes of the copied rows, so their lengths decide.
theorem length_take_copied_eq_iff :
    (((loadableRows inst dev db imgid).filter (isCopied skip)).take
        (columnInt (db.historyEnd imgid)).toNat).length =
      ((activeRows inst dev db imgid).filter (isCopied skip)).length ↔
      PasteKeepsActive inst dev skip db imgid := by
  rw [← take_copied_eq_iff]
  refine ⟨fun hlength => ?_, congrArg length⟩
  have hfirst : (activeRows inst dev db imgid).filter (isCopied skip) <+:
      (loadableRows inst dev db imgid).filter (isCopied skip) :=
    (List.take_prefix ..).filter _
  exact (prefix_of_prefix_length_le (List.take_prefix ..) hfirst
    (le_of_eq hlength)).eq_of_length hlength

theorem loadedFrom_setImgid_iff {item : HistoryItem ModuleRef} {row : HistoryRow} :
    LoadedFrom inst dev item { row with imgid := imgid } ↔ LoadedFrom inst dev item row :=
  ⟨fun h => ⟨h.1, h.2, h.3, h.4, h.5, h.6, h.7, h.8, h.9⟩,
    fun h => ⟨h.1, h.2, h.3, h.4, h.5, h.6, h.7, h.8, h.9⟩⟩

end Active

/-- After the paste, the items that are active in the destination are those of the source's active
rows that are not skipped, exactly if no active row is skipped or no row above `history_end` is
copied. -/
theorem paste_active_iff (inst : Installation) (presets : AutoPresets) (operations : List String)
    (copyFull : Bool) (db : Database) (w : Workspace) (imgid dest : ImgId) (hdest : dest ≠ 0)
    (hne : imgid ≠ dest) (himage : (db.images dest).isSome) (hw : w.Fresh)
    (hempty : w.dev.history = []) (hiop : w.dev.iop ≠ []) :
    let skip := skipModules operations copyFull
    let pasted := historyCopyAndPasteOnImageOverwrite operations copyFull db imgid dest
    let read := (dtDevReadHistoryExt inst presets pasted w dest true).2.dev
    Forall₂ (LoadedFrom inst read) read.active
        ((activeRows inst w.dev db imgid).filter (isCopied skip)) ↔
      PasteKeepsActive inst w.dev skip db imgid := by
  intro skip pasted read
  obtain ⟨hrows, hend⟩ := @paste_spec operations copyFull db imgid dest hne himage
  set w₀ : Workspace := { w with dev := dtIopprSetDefaultIopOrder pasted w.dev dest } with hw₀
  have hread : read = (readDevelop inst pasted w₀ dest).dev := by
    show (dtDevReadHistoryExt inst presets pasted w dest true).2.dev = _
    rw [dtDevReadHistoryExt, if_neg (not_or.mpr ⟨hdest, hiop⟩)]
    rfl
  have hfresh : w₀.Fresh := fun m hm =>
    hw m ((dtIopprSetDefaultIopOrder_perm pasted w.dev dest).mem_iff.mp hm)
  have hactive := @readDevelop_active inst w₀ hfresh hempty pasted dest
  -- the active rows of the destination are the first copied rows that can be loaded
  have hactiveRows : activeRows inst w₀.dev pasted dest =
      (((loadableRows inst w.dev db imgid).filter (isCopied skip)).take
        (columnInt (db.historyEnd imgid)).toNat).map fun row => { row with imgid := dest } := by
    have hloadable : loadableRows inst w₀.dev pasted dest =
        ((loadableRows inst w.dev db imgid).filter (isCopied skip)).map
          fun row => { row with imgid := dest } := by
      rw [loadableRows, show pasted.historyByNum dest = _ from hrows, filter_map, loadableRows,
        filter_filter, filter_filter]
      refine congrArg _ (filter_congr fun row _ => ?_)
      rw [Bool.and_comm]
      exact congrArg _ (loadable_setDefaultIopOrder pasted w.dev dest { row with imgid := dest })
    rw [activeRows, hloadable, historyEndOr, show pasted.historyEnd dest = _ from hend, map_take]
    rfl
  rw [hactiveRows, ← hread, forall₂_map_right_iff] at hactive
  have hactive := hactive.imp fun _ _ => loadedFrom_setImgid_iff.mp
  constructor
  · intro hsource
    rw [← length_take_copied_eq_iff, ← hactive.length_eq, hsource.length_eq]
  · intro hkeeps
    rw [← take_copied_eq_iff.mpr hkeeps]
    exact hactive

def samplePair (historyEnd : Int) (rows : List HistoryRow) : Database :=
  { sampleDb historyEnd rows with
    images := Function.update (sampleDb historyEnd rows).images 2
      (some { historyEnd := some 0, aspectRatio := none, autoPresetsApplied := true }) }

theorem paste_active_full :
    let db := samplePair 2 [sampleRow 0 "demosaic", sampleRow 1 "exposure"]
    let pasted := historyCopyAndPasteOnImageOverwrite ["demosaic"] false db 1 2
    let read := (dtDevReadHistoryExt sampleInstallation ⟨[], none⟩ pasted sampleWorkspace 2 true).2
    Forall₂ (LoadedFrom sampleInstallation read.dev) read.dev.active
      ((activeRows sampleInstallation sampleWorkspace.dev db 1).filter (isCopied ["demosaic"])) :=
  (paste_active_iff sampleInstallation ⟨[], none⟩ ["demosaic"] false
    (samplePair 2 [sampleRow 0 "demosaic", sampleRow 1 "exposure"]) sampleWorkspace 1 2
    (by decide) (by decide) rfl (by decide) rfl (by decide)).mpr (by decide)

/-- The skipped row 0 leaves a place below `history_end`, and the row 2, undone in the source, moves
up into it. -/
theorem paste_activates_undone :
    let db := samplePair 2
      [sampleRow 0 "demosaic", sampleRow 1 "exposure", sampleRow 2 "colorin"]
    let pasted := historyCopyAndPasteOnImageOverwrite ["demosaic"] false db 1 2
    let read := (dtDevReadHistoryExt sampleInstallation ⟨[], none⟩ pasted sampleWorkspace 2 true).2
    ¬ Forall₂ (LoadedFrom sampleInstallation read.dev) read.dev.active
      ((activeRows sampleInstallation sampleWorkspace.dev db 1).filter
        (isCopied ["demosaic"])) := by
  intro db pasted read h
  have hlength := h.length_eq
  exact absurd hlength (by decide)

end DTLite
