import DTLite.Common.ExifXmp
import DTLite.Reasoning.Transaction

/-!
# A sidecar that is not read

`dt_exif_xmp_read` with the outcomes of its statements.  It deletes the masks before it knows
whether it can read the rest, and only what follows is in a transaction.
-/

namespace DTLite

open Reasoning Database List

-- The statements of the transaction that end it when they fail.
inductive ReadStatement where
  | deleteHistory
  | insertHistory (n : Nat)
  | updateEnd
  -- the two statements of `dt_ioppr_write_iop_order`
  | insertOrder
  | updateOrder
deriving DecidableEq, Repr

-- With so many entries there is this statement.
def ReadStatement.occurs (entries : Nat) : ReadStatement → Bool
  | insertHistory n => n < entries
  | _ => true

/-- How the statements of `dt_exif_xmp_read` go, and the first one of the transaction that fails. -/
structure ReadOutcome where
  deleteMasks : Bool := true
  -- the COMMIT behind the masks, which belongs to no BEGIN of this function
  commitsMasks : Bool := true
  begins : Bool := true
  fails : Option ReadStatement := none
  commits : Bool := true
deriving DecidableEq, Repr

-- `version`.
def xmpVersion (z : Exiv2) (xmp : XmpData) : Int :=
  ((valueOf? xmpVersionKey xmp).map z.toLong).getD 0

section Read

variable (z : Exiv2) (imgid : ImgId) (xmp : XmpData)

def xmpRows : List HistoryRow := (readHistoryV2 z xmp).map (·.row imgid)

def withRows (rows : List HistoryRow) (db : Database) : Database :=
  (db.deleteHistory imgid).insertHistory rows

def withHistory (db : Database) : Database :=
  let db := withRows imgid (xmpRows z imgid xmp) db
  db.setHistoryEnd imgid (some ((xmpHistoryEnd z (readHistoryV2 z xmp).length xmp).getD
    (nextNum (db.historyOf imgid))))

def readUpTo (db : Database) : ReadStatement → Database
  | .deleteHistory => db
  | .insertHistory n => withRows imgid ((xmpRows z imgid xmp).take n) db
  | .updateEnd => withRows imgid (xmpRows z imgid xmp) db
  | .insertOrder => withHistory z imgid xmp db
  | .updateOrder =>
      let db := withHistory z imgid xmp db
      { db with
        moduleOrder := Function.update db.moduleOrder imgid (some ⟨some iopOrderCustom, none⟩) }

def failing (ok : ReadOutcome) : Option ReadStatement :=
  ok.fails.filter (·.occurs (readHistoryV2 z xmp).length)

/-- `dt_exif_xmp_read`, with `true` for the return value 0. There are no XMP data if the file is not
a sidecar or exiv2 throws. -/
def dtExifXmpReadConn (md5 : Blob → Blob) (altered : Bool) (ok : ReadOutcome) (c : Conn Database) :
    Option XmpData → Conn Database × Bool
  | none => (c, false)
  | some xmp =>
      let c := c.run (attempt ok.deleteMasks (·.deleteMasks imgid))
      let c := c.exec "COMMIT" ok.commitsMasks
      if 4 < xmpVersion z xmp then (c, false)
      else
        let c := c.exec "BEGIN TRANSACTION" ok.begins
        match failing z xmp ok with
        | some statement =>
            ((c.run (readUpTo z imgid xmp · statement)).exec "ROLLBACK TRANSACTION" true, false)
        | none =>
            let c := c.run fun db => dtIopprWriteIopOrderList (withHistory z imgid xmp db)
              (xmpOrderList z (xmpVersion z xmp) xmp) imgid
            ((c.exec "COMMIT" ok.commits).run (readHashes z md5 altered imgid xmp), true)

/-- With every statement succeeding the tables are as `dtExifXmpRead` says. -/
theorem dtExifXmpReadConn_data (md5 : Blob → Blob) (altered : Bool) (c : Conn Database) :
    let r := dtExifXmpReadConn z imgid md5 altered {} c (some xmp)
    r.1.data = (dtExifXmpRead z md5 altered c.data imgid xmp).db ∧
      r.2 = (dtExifXmpRead z md5 altered c.data imgid xmp).ok := by
  intro r
  by_cases hversion : 4 < xmpVersion z xmp
  · have hr : r = _ := if_pos hversion
    have hread : dtExifXmpRead z md5 altered c.data imgid xmp = _ := if_pos hversion
    rw [hr, hread, Conn.exec_commit]
    exact ⟨Conn.commit_data _ _, rfl⟩
  · have hr : r = _ := if_neg hversion
    have hread : dtExifXmpRead z md5 altered c.data imgid xmp = _ := if_neg hversion
    rw [hr, hread]
    simp only [Conn.run]
    exact ⟨rfl, trivial⟩

/-! ## What an error leaves -/

/-- The rows, the module order and `history_end` of the image are the same. -/
structure EditKept (before after : Database) : Prop where
  history : (after.historyOf imgid).Perm (before.historyOf imgid)
  masks : (after.masksOf imgid).Perm (before.masksOf imgid)
  moduleOrder : after.moduleOrder imgid = before.moduleOrder imgid
  historyEnd : after.historyEnd imgid = before.historyEnd imgid

def MasksKept (ok : ReadOutcome) (before : Database) : Prop :=
  ok.deleteMasks → before.masksOf imgid = []

def xmpNewEnd : Int :=
  (xmpHistoryEnd z (readHistoryV2 z xmp).length xmp).getD (nextNum (xmpRows z imgid xmp))

-- What the statements before this one wrote is what was there.
def Harmless (before : Database) : ReadStatement → Prop
  | .deleteHistory => True
  | .insertHistory n => ((xmpRows z imgid xmp).take n).Perm (before.historyOf imgid)
  | .updateEnd => (xmpRows z imgid xmp).Perm (before.historyOf imgid)
  | .insertOrder =>
      (xmpRows z imgid xmp).Perm (before.historyOf imgid) ∧
        (before.images imgid).map (fun _ => xmpNewEnd z imgid xmp) = before.historyEnd imgid
  | .updateOrder =>
      ((xmpRows z imgid xmp).Perm (before.historyOf imgid) ∧
        (before.images imgid).map (fun _ => xmpNewEnd z imgid xmp) = before.historyEnd imgid) ∧
        before.moduleOrder imgid = some ⟨some iopOrderCustom, none⟩

/-- When an error changes nothing. Masks are lost with every error, and the rest where BEGIN failed;
but a transaction that was open before and that the COMMIT could not end is rolled back as a whole.
-/
def ReadKeeps (ok : ReadOutcome) (c : Conn Database) : Option XmpData → Prop
  | none => True
  | some xmp =>
      if 4 < xmpVersion z xmp then MasksKept imgid ok c.data
      else
        ∀ statement, failing z xmp ok = some statement →
          match if ok.commitsMasks then none else c.saved with
          | some saved => EditKept imgid c.data saved
          | none => MasksKept imgid ok c.data ∧
              (ok.begins ∨ Harmless z imgid xmp c.data statement)

theorem historyOf_withRows {rows : List HistoryRow} (hrows : ∀ row ∈ rows, row.imgid = imgid)
    (db : Database) : (withRows imgid rows db).historyOf imgid = rows := by
  rw [withRows, historyOf_insertHistory _ _ hrows, historyOf_deleteHistory, nil_append]

theorem imgid_of_mem_xmpRows {row : HistoryRow} (h : row ∈ xmpRows z imgid xmp) :
    row.imgid = imgid := by
  obtain ⟨entry, -, rfl⟩ := mem_map.mp h
  rfl

variable (ok : ReadOutcome) (db : Database)

theorem historyOf_withHistory :
    (withHistory z imgid xmp db).historyOf imgid = xmpRows z imgid xmp :=
  historyOf_withRows imgid (fun _ => imgid_of_mem_xmpRows z imgid xmp) db

theorem historyEnd_withHistory :
    (withHistory z imgid xmp db).historyEnd imgid =
      (db.images imgid).map fun _ => xmpNewEnd z imgid xmp := by
  rw [withHistory, historyEnd_setHistoryEnd,
    historyOf_withRows imgid (fun _ => imgid_of_mem_xmpRows z imgid xmp)]
  show (db.images imgid).bind _ = _
  cases db.images imgid with
  | none => rfl
  | some image => rfl

theorem masks_attempt_iff :
    ((attempt ok.deleteMasks (·.deleteMasks imgid) db).masksOf imgid).Perm (db.masksOf imgid) ↔
      MasksKept imgid ok db := by
  rw [attempt, MasksKept]
  cases ok.deleteMasks with
  | true =>
    rw [if_pos rfl, imp_iff_right rfl, masksOf_deleteMasks, nil_perm]
  | false => exact iff_of_true (Perm.refl _) Bool.noConfusion

theorem attempt_deleteMasks_rest (ok : Bool) (db : Database) :
    ∃ masks, attempt ok (·.deleteMasks imgid) db = { db with masksHistory := masks } := by
  cases ok with
  | true => exact ⟨_, rfl⟩
  | false => exact ⟨db.masksHistory, rfl⟩

theorem editKept_deleteMasks_iff :
    EditKept imgid db (attempt ok.deleteMasks (·.deleteMasks imgid) db) ↔
      MasksKept imgid ok db := by
  rw [← masks_attempt_iff]
  obtain ⟨masks, hdb⟩ := attempt_deleteMasks_rest imgid ok.deleteMasks db
  rw [hdb]
  exact ⟨EditKept.masks, fun h => ⟨Perm.refl _, h, rfl, rfl⟩⟩

theorem editKept_readUpTo_iff (statement : ReadStatement) :
    EditKept imgid db
        (readUpTo z imgid xmp (attempt ok.deleteMasks (·.deleteMasks imgid) db) statement) ↔
      MasksKept imgid ok db ∧ Harmless z imgid xmp db statement := by
  have hown : ∀ row ∈ xmpRows z imgid xmp, row.imgid = imgid :=
    fun _ => imgid_of_mem_xmpRows z imgid xmp
  rw [← masks_attempt_iff]
  obtain ⟨masks, hdb⟩ := attempt_deleteMasks_rest imgid ok.deleteMasks db
  rw [hdb]
  set deleted : Database := { db with masksHistory := masks } with hdeleted
  have hend : (withHistory z imgid xmp deleted).historyEnd imgid =
      (db.images imgid).map fun _ => xmpNewEnd z imgid xmp :=
    historyEnd_withHistory z imgid xmp deleted
  cases statement with
  | deleteHistory =>
    exact ⟨fun h => ⟨h.masks, trivial⟩, fun h => ⟨Perm.refl _, h.1, rfl, rfl⟩⟩
  | insertHistory n =>
    have htake : ∀ row ∈ (xmpRows z imgid xmp).take n, row.imgid = imgid :=
      fun row hrow => hown row (mem_of_mem_take hrow)
    have hrows := Perm.of_eq (historyOf_withRows imgid htake deleted)
    exact ⟨fun h => ⟨h.masks, hrows.symm.trans h.history⟩,
      fun h => ⟨hrows.trans h.2, h.1, rfl, rfl⟩⟩
  | updateEnd =>
    have hrows := Perm.of_eq (historyOf_withRows imgid hown deleted)
    exact ⟨fun h => ⟨h.masks, hrows.symm.trans h.history⟩,
      fun h => ⟨hrows.trans h.2, h.1, rfl, rfl⟩⟩
  | insertOrder =>
    have hrows := Perm.of_eq (historyOf_withHistory z imgid xmp deleted)
    exact ⟨fun h => ⟨h.masks, hrows.symm.trans h.history, hend.symm.trans h.historyEnd⟩,
      fun h => ⟨hrows.trans h.2.1, h.1, rfl, hend.trans h.2.2⟩⟩
  | updateOrder =>
    have hrows := Perm.of_eq (historyOf_withHistory z imgid xmp deleted)
    have horder : (readUpTo z imgid xmp deleted .updateOrder).moduleOrder imgid =
      some ⟨some iopOrderCustom, none⟩ := Function.update_self ..
    exact ⟨fun h => ⟨h.masks, ⟨hrows.symm.trans h.history, hend.symm.trans h.historyEnd⟩,
        h.moduleOrder.symm.trans horder⟩,
      fun h => ⟨hrows.trans h.2.1.1, h.1, horder.trans h.2.2.symm, hend.trans h.2.1.2⟩⟩

def masksCleared (ok : ReadOutcome) (c : Conn Database) : Conn Database :=
  (c.run (attempt ok.deleteMasks (·.deleteMasks imgid))).commit ok.commitsMasks

theorem masksCleared_data (c : Conn Database) :
    (masksCleared imgid ok c).data = attempt ok.deleteMasks (·.deleteMasks imgid) c.data :=
  Conn.commit_data _ _

theorem editKept_rollback_iff (c : Conn Database) (statement : ReadStatement) :
    EditKept imgid c.data ((((masksCleared imgid ok c).start ok.begins).run
        (readUpTo z imgid xmp · statement)).rollback).data ↔
      match if ok.commitsMasks then none else c.saved with
      | some saved => EditKept imgid c.data saved
      | none => MasksKept imgid ok c.data ∧
          (ok.begins ∨ Harmless z imgid xmp c.data statement) := by
  have hsaved : (masksCleared imgid ok c).saved = if ok.commitsMasks then none else c.saved :=
    Conn.commit_saved _ _
  rw [Conn.rollback_run_start_data, hsaved, masksCleared_data]
  cases if ok.commitsMasks then none else c.saved with
  | some saved => rfl
  | none =>
    rw [Option.getD_none]
    cases ok.begins with
    | true =>
      rw [if_pos rfl, editKept_deleteMasks_iff]
      exact (and_iff_left (Or.inl rfl)).symm
    | false =>
      rw [if_neg Bool.false_ne_true, editKept_readUpTo_iff]
      exact and_congr_right' (or_iff_right Bool.false_ne_true).symm

/-- The image keeps its rows, its module order and `history_end` at every error, exactly under
`ReadKeeps`. -/
theorem dtExifXmpReadConn_keeps_iff (md5 : Blob → Blob) (altered : Bool) (ok : ReadOutcome)
    (c : Conn Database) (xmp : Option XmpData) :
    let r := dtExifXmpReadConn z imgid md5 altered ok c xmp
    (r.2 = false → EditKept imgid c.data r.1.data) ↔ ReadKeeps z imgid ok c xmp := by
  cases xmp with
  | none => exact iff_of_true (fun _ => ⟨Perm.refl _, Perm.refl _, rfl, rfl⟩) trivial
  | some xmp =>
    simp only [dtExifXmpReadConn, ReadKeeps]
    split
    · rw [imp_iff_right rfl]
      show EditKept imgid c.data (masksCleared imgid ok c).data ↔ _
      rw [masksCleared_data]
      exact editKept_deleteMasks_iff imgid ok c.data
    · cases hfailing : failing z xmp ok with
      | none => exact iff_of_true Bool.noConfusion fun _ h => by cases h
      | some statement =>
        have hrollback := editKept_rollback_iff z imgid xmp ok c statement
        constructor
        · intro h statement' hstatement
          cases hstatement
          exact hrollback.mp (h rfl)
        · exact fun h _ => hrollback.mpr (h statement rfl)

end Read

/-- A sidecar of a later version is refused, when the mask is already gone. -/
theorem later_sidecar_loses_mask :
    let r := dtExifXmpReadConn storedExiv2 1 id false {} ⟨sampleSpots, none⟩
      (some [(xmpVersionKey, "5".toList)])
    r.2 = false ∧ sampleSpots.masksOf 1 = [sampleCircle] ∧ r.1.data.masksOf 1 = [] ∧
      ¬ EditKept 1 sampleSpots r.1.data := by
  intro r
  have hmasks : r.1.data.masksOf 1 = [] := by decide
  refine ⟨by decide, by decide, hmasks, fun h => ?_⟩
  have hperm := h.masks
  exact absurd hperm (by decide)

end DTLite
