import DTLite.Common.XmpHistory

/-!
# A sidecar written and read

What is left of the rows of the history, of the masks, of `history_end` and of the module order of
an image once its sidecar has been written and read into an image.
-/

namespace DTLite

open Reasoning Database List

/-! ## What the sidecar holds -/

variable {rows : List HistoryRow} {key : Text}

section Written

variable (z : Exiv2) (config : CompressXmpTags) (db : Database) (imgid : ImgId)

def orderKeys : List Text := [iopOrderVersionKey, iopOrderListKey]
def hashKeys : List Text := [basicHashKey, autoHashKey, currentHashKey]

def otherKeys : List Text := [xmpVersionKey, autoPresetsAppliedKey, historyEndKey]

theorem fixedKeys_eq : fixedKeys = otherKeys ++ orderKeys ++ hashKeys := rfl

theorem not_mem_hashKeys (hkey : key ∈ otherKeys ++ orderKeys) : key ∉ hashKeys :=
  disjoint_of_nodup_append (fixedKeys_eq ▸ fixedKeys_spec.1) hkey

theorem not_mem_orderKeys (hkey : key ∈ otherKeys) : key ∉ orderKeys :=
  disjoint_of_nodup_append (fixedKeys_eq ▸ fixedKeys_spec.1).of_append_left hkey

variable (xmp : XmpData)

theorem valueOf?_writeHashes (hkey : key ∉ hashKeys) :
    valueOf? key (writeHashes z config db imgid xmp) = valueOf? key xmp := by
  have hwrite : ∀ key' ∈ hashKeys, ∀ hash xmp,
      valueOf? key (writeHash z config key' hash xmp) = valueOf? key xmp := by
    intro key' hkey' hash xmp
    rw [writeHash]
    cases columnBlob hash with
    | none => rfl
    | some hash =>
      apply valueOf?_assign_of_ne
      rintro rfl
      exact hkey hkey'
  simp only [writeHashes]
  rw [hwrite currentHashKey (by simp [hashKeys]), hwrite autoHashKey (by simp [hashKeys]),
    hwrite basicHashKey (by simp [hashKeys])]

theorem valueOf?_writeOrder (hkey : key ∉ orderKeys) :
    valueOf? key (writeOrder db imgid xmp) = valueOf? key xmp := by
  have hversion : key ≠ iopOrderVersionKey := fun h => hkey (by simp [orderKeys, h])
  have hlist : key ≠ iopOrderListKey := fun h => hkey (by simp [orderKeys, h])
  simp only [writeOrder]
  split
  · rw [valueOf?_assign_of_ne hlist, valueOf?_assign_of_ne hversion]
  · rw [valueOf?_assign_of_ne hversion]

theorem valueOf?_of_otherKeys (hkey : key ∈ otherKeys) :
    valueOf? key (writeHashes z config db imgid (writeOrder db imgid xmp)) = valueOf? key xmp := by
  rw [valueOf?_writeHashes _ _ _ _ _ (not_mem_hashKeys (mem_append_left _ hkey)),
    valueOf?_writeOrder _ _ _ (not_mem_orderKeys hkey)]

theorem entriesFrom_writeHashes :
    entriesFrom historyKey isHistoryField (writeHashes z config db imgid xmp) =
      entriesFrom historyKey isHistoryField xmp := by
  have hwrite : ∀ key ∈ fixedKeys, ∀ hash xmp,
      entriesFrom historyKey isHistoryField (writeHash z config key hash xmp) =
        entriesFrom historyKey isHistoryField xmp := by
    intro key hkey hash xmp
    rw [writeHash]
    cases columnBlob hash with
    | none => rfl
    | some hash => exact entriesFrom_assign_fixed hkey _ xmp
  simp only [writeHashes]
  rw [hwrite currentHashKey (by simp [fixedKeys]), hwrite autoHashKey (by simp [fixedKeys]),
    hwrite basicHashKey (by simp [fixedKeys])]

theorem entriesFrom_writeOrder :
    entriesFrom historyKey isHistoryField (writeOrder db imgid xmp) =
      entriesFrom historyKey isHistoryField xmp := by
  simp only [writeOrder]
  split
  · rw [entriesFrom_assign_fixed (by simp [fixedKeys]),
      entriesFrom_assign_fixed (by simp [fixedKeys])]
  · rw [entriesFrom_assign_fixed (by simp [fixedKeys])]

/-- The keys of the history and of the module order are not there before: `dt_remove_known_keys`
took them out. -/
structure KnownKeysRemoved (xmp : XmpData) : Prop where
  noHistory : NoHistory xmp
  noOrderList : iopOrderListKey ∉ xmp.map Prod.fst

variable {xmp : XmpData} (hxmp : KnownKeysRemoved xmp)
include hxmp

theorem KnownKeysRemoved.noHistory_assign (version presets : Text) :
    NoHistory (assign autoPresetsAppliedKey presets (assign xmpVersionKey version xmp)) :=
  (hxmp.noHistory.assign (by simp [fixedKeys]) version).assign (by simp [fixedKeys]) presets

theorem readHistoryV2_written (hrows : ∀ row ∈ db.historyOf imgid, BlobsFit row) :
    readHistoryV2 z (exifXmpReadData z config db imgid xmp) =
      writtenEntries (db.historyByNum imgid) := by
  apply readHistoryV2_of_entriesFrom z config
  · simp only [exifXmpReadData]
    rw [entriesFrom_writeHashes, entriesFrom_writeOrder,
      entriesFrom_dtSetXmpDtHistory z config (hxmp.noHistory_assign _ _)]
  · intro row hrow
    exact hrows row ((orderByNum_perm _ _).mem_iff.mp hrow)

theorem xmpVersion_written :
    valueOf? xmpVersionKey (exifXmpReadData z config db imgid xmp) = some (printInt 4) := by
  simp only [exifXmpReadData]
  have hend : xmpVersionKey ≠ historyEndKey := @fixedKeys_ne 0 2 (by decide)
  have hpresets : xmpVersionKey ≠ autoPresetsAppliedKey := @fixedKeys_ne 0 1 (by decide)
  rw [valueOf?_of_otherKeys _ _ _ _ _ (by simp [otherKeys]),
    valueOf?_dtSetXmpDtHistory z config (hxmp.noHistory_assign _ _) _ _ _ (by simp [fixedKeys])
      hend, valueOf?_assign_of_ne hpresets, valueOf?_assign]

theorem xmpHistoryEnd_written {historyEnd : Int} (hend : db.historyEnd imgid = some historyEnd)
    (num : Nat) :
    xmpHistoryEnd z num (exifXmpReadData z config db imgid xmp) =
      if 0 < num then
        some (min (writtenEnd historyEnd (writtenEntries (db.historyByNum imgid)).length) num)
      else none := by
  obtain ⟨image, himage, hcolumn⟩ := Option.bind_eq_some_iff.mp hend
  have hvalue : valueOf? historyEndKey (exifXmpReadData z config db imgid xmp) =
      some (printInt (writtenEnd historyEnd (writtenEntries (db.historyByNum imgid)).length)) := by
    simp only [exifXmpReadData]
    rw [valueOf?_of_otherKeys _ _ _ _ _ (by simp [otherKeys]),
      historyEnd_dtSetXmpDtHistory z config (hxmp.noHistory_assign _ _), himage]
    show some (printInt (writtenEnd (columnInt image.historyEnd) _)) = _
    rw [hcolumn]
    rfl
  rw [xmpHistoryEnd, hvalue, Option.map_some, Exiv2.toLong_printInt]

theorem xmpOrderList_written :
    xmpOrderList z 4 (exifXmpReadData z config db imgid xmp) =
      if writesOrderList db imgid then
        (dtIopprDeserializeTextIopOrderList
          (dtIopprSerializeTextIopOrderList (dtIopprGetIopOrderList db imgid))).getD []
      else dtIopprGetIopOrderListVersion (xmpOrderVersion db imgid) := by
  rw [xmpOrderList, if_pos rfl]
  simp only [exifXmpReadData]
  rw [valueOf?_writeHashes _ _ _ _ _ (not_mem_hashKeys (by simp [orderKeys])),
    valueOf?_writeHashes _ _ _ _ _ (not_mem_hashKeys (by simp [otherKeys, orderKeys]))]
  by_cases hwrites : writesOrderList db imgid = true
  · rw [if_pos hwrites]
    simp only [writeOrder]
    rw [if_pos hwrites, valueOf?_assign]
  · rw [if_neg hwrites]
    simp only [writeOrder]
    have hnone : ∀ historyEnd version presets, valueOf? iopOrderListKey
        (dtSetXmpDtHistory z config db imgid historyEnd (assign autoPresetsAppliedKey presets
          (assign xmpVersionKey version xmp))) = none := by
      intro historyEnd version presets
      have hend : iopOrderListKey ≠ historyEndKey := @fixedKeys_ne 4 2 (by decide)
      have hpresets : iopOrderListKey ≠ autoPresetsAppliedKey := @fixedKeys_ne 4 1 (by decide)
      have hversion : iopOrderListKey ≠ xmpVersionKey := @fixedKeys_ne 4 0 (by decide)
      rw [valueOf?_dtSetXmpDtHistory z config (hxmp.noHistory_assign _ _) _ _ _
        (by simp [fixedKeys]) hend, valueOf?_assign_of_ne hpresets,
        valueOf?_assign_of_ne hversion, valueOf?_eq_none hxmp.noOrderList]
    have hversion : iopOrderListKey ≠ iopOrderVersionKey := @fixedKeys_ne 4 3 (by decide)
    rw [if_neg hwrites, valueOf?_assign_of_ne hversion, hnone, valueOf?_assign, Option.map_some,
      Exiv2.toLong_printInt]
    rfl

end Written

/-! ## The rows -/

/-- The row is read as it was: no column that the sidecar always sets is `NULL`, `enabled` is a
flag, and the blend params are there with their version or not at all, in the version that the
reader then assumes. -/
structure RowKept (row : HistoryRow) : Prop where
  operation : row.operation.isSome
  module : row.module.isSome
  opParams : row.opParams.isSome
  enabled : row.enabled = some 0 ∨ row.enabled = some 1
  multiPriority : row.multiPriority.isSome
  multiName : row.multiName.isSome
  blendopParams : row.blendopParams ≠ some []
  blendopVersion : row.blendopVersion.isSome
  defaultVersion : row.blendopParams = none → row.blendopVersion = some 1

theorem some_getD_eq_iff {α : Type} (o : Option α) (a : α) : some (o.getD a) = o ↔ o.isSome := by
  cases o <;> simp

theorem enabled_eq_iff (enabled : Option Int) :
    some (if columnInt enabled == 1 then 1 else 0) = enabled ↔
      enabled = some 0 ∨ enabled = some 1 := by
  cases enabled with
  | none => simp
  | some n =>
    simp only [columnInt, Option.getD_some, beq_iff_eq, Option.some.injEq]
    split <;> omega

theorem columnBlob_eq_iff (column : Option Blob) :
    columnBlob column = column ↔ column ≠ some [] := by
  cases column with
  | none => simp [columnBlob]
  | some blob => by_cases h : blob = [] <;> simp [columnBlob]

theorem blendopVersion_eq_iff {params : Option Blob} (hparams : params ≠ some [])
    (version : Option Int) :
    some (if (columnBlob params).isSome then columnInt version else 1) = version ↔
      version.isSome ∧ (params = none → version = some 1) := by
  rw [(columnBlob_eq_iff params).mpr hparams]
  cases params with
  | none => cases version <;> simp [eq_comm]
  | some blob => cases version <;> simp [columnInt]

theorem writtenEntry_row_eq_iff {row : HistoryRow} {operation : String}
    (hop : row.operation = some operation) (hnum : row.num.isSome) (dest : ImgId) :
    (writtenEntry row operation).row dest = { row with imgid := dest } ↔ RowKept row := by
  have hnum' := (some_getD_eq_iff row.num 0).mpr hnum
  rw [HistoryRow.mk.injEq]
  constructor
  · rintro ⟨-, -, hmodule, -, hparams, henabled, hblend, hversion, hpriority, hname⟩
    have hblend' := (columnBlob_eq_iff row.blendopParams).mp hblend
    have hversion' := (blendopVersion_eq_iff hblend' row.blendopVersion).mp hversion
    exact
      { operation := by rw [hop]; rfl
        module := (some_getD_eq_iff _ _).mp hmodule
        opParams := (some_getD_eq_iff _ _).mp hparams
        enabled := (enabled_eq_iff _).mp henabled
        multiPriority := (some_getD_eq_iff _ _).mp hpriority
        multiName := (some_getD_eq_iff _ _).mp hname
        blendopParams := hblend'
        blendopVersion := hversion'.1
        defaultVersion := hversion'.2 }
  · intro h
    exact ⟨rfl, hnum', (some_getD_eq_iff _ _).mpr h.module, hop.symm,
      (some_getD_eq_iff _ _).mpr h.opParams, (enabled_eq_iff _).mpr h.enabled,
      (columnBlob_eq_iff _).mpr h.blendopParams,
      (blendopVersion_eq_iff h.blendopParams _).mpr ⟨h.blendopVersion, h.defaultVersion⟩,
      (some_getD_eq_iff _ _).mpr h.multiPriority, (some_getD_eq_iff _ _).mpr h.multiName⟩

theorem writtenEntries_length_le (rows : List HistoryRow) :
    (writtenEntries rows).length ≤ rows.length :=
  length_filterMap_le ..

/-- The rows that are read are those that were written, if every one of them is kept. -/
theorem writtenEntries_rows_eq_iff (hnum : ∀ row ∈ rows, row.num.isSome) (dest : ImgId) :
    (writtenEntries rows).map (·.row dest) = rows.map (fun row => { row with imgid := dest }) ↔
      ∀ row ∈ rows, RowKept row := by
  induction rows with
  | nil => exact iff_of_true rfl fun row hrow => absurd hrow not_mem_nil
  | cons row rows ih =>
    have ih := ih fun row' hrow' => hnum row' (mem_cons_of_mem _ hrow')
    rw [forall_mem_cons, writtenEntries]
    cases hop : row.operation with
    | none =>
      -- the row is not written, so there is one row less
      rw [filterMap_cons_none (by rw [hop]; rfl)]
      apply iff_of_false
      · intro heq
        have hlength := congrArg length heq
        rw [length_map, length_map, length_cons] at hlength
        have hle := writtenEntries_length_le rows
        rw [writtenEntries] at hle
        omega
      · intro h
        exact absurd h.1.operation (by rw [hop]; decide)
    | some operation =>
      rw [filterMap_cons_some (by rw [hop]; rfl), map_cons, map_cons,
        cons.injEq, writtenEntry_row_eq_iff hop (hnum row mem_cons_self)]
      exact and_congr_right fun _ => ih

theorem writtenEntries_length (h : ∀ row ∈ rows, RowKept row) :
    (writtenEntries rows).length = rows.length := by
  induction rows with
  | nil => rfl
  | cons row rows ih =>
    rw [forall_mem_cons] at h
    obtain ⟨operation, hop⟩ := Option.isSome_iff_exists.mp h.1.operation
    rw [writtenEntries, filterMap_cons_some (by rw [hop]; rfl)]
    exact congrArg (· + 1) (ih h.2)

theorem writtenEntries_sorted (hsorted : rows.Pairwise fun a b => numLe a.num b.num)
    (hnum : ∀ row ∈ rows, row.num.isSome) (dest : ImgId) :
    ((writtenEntries rows).map (·.row dest)).Pairwise fun a b => numLe a.num b.num := by
  rw [pairwise_map, writtenEntries, pairwise_filterMap]
  refine hsorted.imp_of_mem fun {a b} ha hb hle entry hentry entry' hentry' => ?_
  obtain ⟨operation, -, rfl⟩ := Option.map_eq_some_iff.mp hentry
  obtain ⟨operation', -, rfl⟩ := Option.map_eq_some_iff.mp hentry'
  show numLe (some (columnInt a.num)) (some (columnInt b.num))
  rw [columnInt, columnInt, (some_getD_eq_iff a.num 0).mpr (hnum a ha),
    (some_getD_eq_iff b.num 0).mpr (hnum b hb)]
  exact hle

-- The text of the order is written, or the order is the one that the reader then assumes.
def OrderKept (db : Database) (imgid : ImgId) : Prop :=
  (dtIopprGetIopOrderVersion db imgid = iopOrderCustom ∧
      dtIopprGetIopOrderListKind (dtIopprGetIopOrderList db imgid) = iopOrderCustom) ∨
    dtIopprHasMultipleInstances (dtIopprGetIopOrderList db imgid) ∨
    iopprResetIopOrder (dtIopprGetIopOrderList db imgid) = iopprResetIopOrder v30OrderList

theorem writesOrderList_iff (db : Database) (imgid : ImgId) :
    writesOrderList db imgid = true ↔
      (dtIopprGetIopOrderVersion db imgid = iopOrderCustom ∧
          dtIopprGetIopOrderListKind (dtIopprGetIopOrderList db imgid) = iopOrderCustom) ∨
        dtIopprHasMultipleInstances (dtIopprGetIopOrderList db imgid) = true := by
  rw [writesOrderList, decide_eq_true_iff]
  apply or_congr_left
  simp only [xmpOrderVersion]
  by_cases hversion : dtIopprGetIopOrderVersion db imgid = iopOrderCustom
  · rw [if_pos hversion]
    split
    · next hkind => exact iff_of_false hkind fun h => hkind h.2
    · next hkind => exact iff_of_true hversion ⟨hversion, not_not.mp hkind⟩
  · rw [if_neg hversion]
    exact iff_of_false hversion fun h => hversion h.1

section Read

variable (z : Exiv2) (md5 : Blob → Blob) (altered : Bool)

theorem sameEdit_readHashes (imgid : ImgId) (xmp : XmpData) (db : Database) (j : ImgId) :
    (readHashes z md5 altered imgid xmp db).SameEdit db j := by
  simp only [readHashes]
  split
  · exact sameEdit_dtHistoryHashWrite db imgid _ _ _ j
  · exact sameEdit_hashWrite md5 db imgid _ j

variable (db : Database) (imgid : ImgId) {xmp : XmpData}

def readRowsDb (xmp : XmpData) : Database :=
  let rows := (readHistoryV2 z xmp).map (·.row imgid)
  (((db.deleteMasks imgid).deleteHistory imgid).insertHistory rows).setHistoryEnd imgid
    (some ((xmpHistoryEnd z (readHistoryV2 z xmp).length xmp).getD (nextNum rows)))

theorem historyOf_insertRead (entries : List HistoryEntry) :
    (((db.deleteMasks imgid).deleteHistory imgid).insertHistory
      (entries.map (·.row imgid))).historyOf imgid = entries.map (·.row imgid) := by
  rw [historyOf_insertHistory, historyOf_deleteHistory, nil_append]
  intro row hrow
  obtain ⟨entry, -, rfl⟩ := mem_map.mp hrow
  rfl

theorem dtExifXmpRead_sameEdit (hversion : valueOf? xmpVersionKey xmp = some (printInt 4))
    (j : ImgId) :
    (dtExifXmpRead z md5 altered db imgid xmp).db.SameEdit
      (dtIopprWriteIopOrderList (readRowsDb z db imgid xmp) (xmpOrderList z 4 xmp) imgid) j := by
  have hfour : ((valueOf? xmpVersionKey xmp).map z.toLong).getD 0 = 4 := by
    rw [hversion]
    exact z.toLong_printInt 4
  simp only [dtExifXmpRead, hfour]
  simp only [historyOf_insertRead]
  exact sameEdit_readHashes z md5 altered imgid xmp _ j

end Read

/-! ## Writing and reading -/

/-- The image `dest` of `db'` has the history, masks, `history_end` and module order that the image
`imgid` has in `db`. -/
structure RestoredFrom (db : Database) (imgid : ImgId) (db' : Database) (dest : ImgId) : Prop where
  history : db'.historyByNum dest = (db.historyByNum imgid).map fun row ↦ { row with imgid := dest }
  masks : db'.masksByNum dest = (db.masksByNum imgid).map fun row => { row with imgid := dest }
  historyEnd : db'.historyEnd dest = db.historyEnd imgid
  moduleOrder : iopprResetIopOrder (dtIopprGetIopOrderList db' dest) =
    iopprResetIopOrder (dtIopprGetIopOrderList db imgid)

/-- An image without masks whose rows and order are kept, with a `history_end` that is not taken for
a missing one. -/
structure SurvivesSidecar (db : Database) (imgid : ImgId) : Prop where
  rows : ∀ row ∈ db.historyOf imgid, RowKept row
  masks : db.masksOf imgid = []
  historyEnd : db.historyEnd imgid ≠ some (-1)
  noHistoryEnd : db.historyOf imgid = [] → db.historyEnd imgid = some 0
  moduleOrder : OrderKept db imgid

section RoundTrip

variable (z : Exiv2) (config : CompressXmpTags) (md5 : Blob → Blob) (altered : Bool)
  {db : Database} {imgid : ImgId} {xmp : XmpData}

section

variable (hxmp : KnownKeysRemoved xmp)
include hxmp

theorem historyByNum_read (hnum : ∀ row ∈ db.historyOf imgid, row.num.isSome)
    (hfits : ∀ row ∈ db.historyOf imgid, BlobsFit row) (db' : Database) (dest : ImgId) :
    (dtExifXmpRead z md5 altered db' dest
        (exifXmpReadData z config db imgid xmp)).db.historyByNum dest =
      (writtenEntries (db.historyByNum imgid)).map (·.row dest) := by
  have hread := dtExifXmpRead_sameEdit z md5 altered db' dest
    (xmpVersion_written z config db imgid hxmp) dest
  have hnum' : ∀ row ∈ db.historyByNum imgid, row.num.isSome := fun row hrow =>
    hnum row ((orderByNum_perm _ _).mem_iff.mp hrow)
  have hsorted := writtenEntries_sorted
    (show (db.historyByNum imgid).Pairwise _ from orderByNum_sorted _ _) hnum' dest
  rw [historyByNum, hread.history]
  show orderByNum _ ((((db'.deleteMasks dest).deleteHistory dest).insertHistory
    ((readHistoryV2 z (exifXmpReadData z config db imgid xmp)).map
      (·.row dest))).historyOf dest) = _
  rw [historyOf_insertRead, readHistoryV2_written z config db imgid hxmp hfits,
    orderByNum_of_sorted hsorted]

variable (db' : Database) (dest : ImgId)

theorem masksByNum_read :
    (dtExifXmpRead z md5 altered db' dest
      (exifXmpReadData z config db imgid xmp)).db.masksByNum dest = [] := by
  have hread := dtExifXmpRead_sameEdit z md5 altered db' dest
    (xmpVersion_written z config db imgid hxmp) dest
  rw [masksByNum, hread.masks]
  show orderByNum _ ((db'.deleteMasks dest).masksOf dest) = []
  rw [masksOf_deleteMasks]
  rfl

theorem historyEnd_read (hfits : ∀ row ∈ db.historyOf imgid, BlobsFit row) {historyEnd : Int}
    (hend : db.historyEnd imgid = some historyEnd) (db' : Database) {dest : ImgId}
    (hdest : (db'.images dest).isSome) :
    (dtExifXmpRead z md5 altered db' dest
        (exifXmpReadData z config db imgid xmp)).db.historyEnd dest =
      some (if 0 < (writtenEntries (db.historyByNum imgid)).length then
        writtenEnd historyEnd (writtenEntries (db.historyByNum imgid)).length else 0) := by
  have hread := dtExifXmpRead_sameEdit z md5 altered db' dest
    (xmpVersion_written z config db imgid hxmp) dest
  obtain ⟨image, himage⟩ := Option.isSome_iff_exists.mp hdest
  rw [hread.historyEnd]
  show (readRowsDb z db' dest (exifXmpReadData z config db imgid xmp)).historyEnd dest = _
  simp only [readRowsDb]
  rw [historyEnd_setHistoryEnd, readHistoryV2_written z config db imgid hxmp hfits,
    xmpHistoryEnd_written z config db imgid hxmp hend]
  show (db'.images dest).bind _ = _
  rw [himage, Option.bind_some, Option.some.injEq]
  set entries := writtenEntries (db.historyByNum imgid) with hentries
  by_cases hsome : 0 < entries.length
  · rw [if_pos hsome, Option.getD_some, writtenEnd]
    split <;> omega
  · have hnil : entries = [] := length_eq_zero_iff.mp (by omega)
    rw [hnil]
    rfl

theorem moduleOrder_read :
    dtIopprGetIopOrderList (dtExifXmpRead z md5 altered db' dest
        (exifXmpReadData z config db imgid xmp)).db dest =
      if writesOrderList db imgid then dtIopprGetIopOrderList db imgid
      else iopprResetIopOrder v30OrderList := by
  have hread := dtExifXmpRead_sameEdit z md5 altered db' dest
    (xmpVersion_written z config db imgid hxmp) dest
  rw [dtIopprGetIopOrderList, hread.moduleOrder]
  rw [xmpOrderList_written z config db imgid hxmp]
  by_cases hwrites : writesOrderList db imgid = true
  · have htext : dtIopprGetIopOrderListKind (dtIopprGetIopOrderList db imgid) = iopOrderCustom ∨
        dtIopprHasMultipleInstances (dtIopprGetIopOrderList db imgid) = true :=
      ((writesOrderList_iff db imgid).mp hwrites).imp And.right id
    -- the table of the code has no text
    have hlist : OrderList (dtIopprGetIopOrderList db imgid) := by
      refine (dtIopprGetIopOrderList_cases db imgid).resolve_left fun hv30 => ?_
      rw [hv30] at htext
      exact absurd htext (by decide)
    rw [if_pos hwrites, if_pos hwrites, hlist.deserialize]
    exact dtIopprGetIopOrderList_write_orderList hlist htext _ dest
  · rw [if_neg hwrites, if_neg hwrites]
    exact dtIopprGetIopOrderList_write_plain (not_keepsText_version _) _ dest

theorem history_restored_iff (hnum : ∀ row ∈ db.historyOf imgid, row.num.isSome)
    (hfits : ∀ row ∈ db.historyOf imgid, BlobsFit row) (db' : Database) (dest : ImgId) :
    (dtExifXmpRead z md5 altered db' dest
        (exifXmpReadData z config db imgid xmp)).db.historyByNum dest =
      (db.historyByNum imgid).map (fun row => { row with imgid := dest }) ↔
      ∀ row ∈ db.historyOf imgid, RowKept row := by
  have hmem : ∀ row, row ∈ db.historyByNum imgid ↔ row ∈ db.historyOf imgid := fun row =>
    (orderByNum_perm ..).mem_iff
  rw [historyByNum_read z config md5 altered hxmp hnum hfits,
    writtenEntries_rows_eq_iff fun row hrow => hnum row ((hmem row).mp hrow)]
  exact forall_congr' fun row => by rw [hmem]

theorem masks_restored_iff :
    (dtExifXmpRead z md5 altered db' dest
        (exifXmpReadData z config db imgid xmp)).db.masksByNum dest =
      (db.masksByNum imgid).map (fun row => { row with imgid := dest }) ↔
      db.masksOf imgid = [] := by
  have hperm : (db.masksByNum imgid).Perm (db.masksOf imgid) := orderByNum_perm ..
  rw [masksByNum_read z config md5 altered hxmp, eq_comm, map_eq_nil_iff]
  constructor
  · intro h
    exact nil_perm.mp (h ▸ hperm)
  · intro h
    exact perm_nil.mp (h ▸ hperm)

theorem historyEnd_restored_iff (hfits : ∀ row ∈ db.historyOf imgid, BlobsFit row)
    (hkept : ∀ row ∈ db.historyOf imgid, RowKept row) {historyEnd : Int}
    (hend : db.historyEnd imgid = some historyEnd) (hle : historyEnd ≤ (db.historyOf imgid).length)
    (db' : Database) {dest : ImgId} (hdest : (db'.images dest).isSome) :
    (dtExifXmpRead z md5 altered db' dest
        (exifXmpReadData z config db imgid xmp)).db.historyEnd dest = db.historyEnd imgid ↔
      db.historyEnd imgid ≠ some (-1) ∧
        (db.historyOf imgid = [] → db.historyEnd imgid = some 0) := by
  have hperm : (db.historyByNum imgid).Perm (db.historyOf imgid) := orderByNum_perm ..
  have hcount : (writtenEntries (db.historyByNum imgid)).length = (db.historyOf imgid).length := by
    rw [writtenEntries_length fun row hrow => hkept row (hperm.mem_iff.mp hrow), hperm.length_eq]
  rw [historyEnd_read z config md5 altered hxmp hfits hend db' hdest, hend, ← length_eq_zero_iff]
  simp only [Option.some.injEq, ne_eq, writtenEnd]
  split
  · split <;> omega
  · omega

theorem moduleOrder_restored_iff :
    iopprResetIopOrder (dtIopprGetIopOrderList (dtExifXmpRead z md5 altered db' dest
        (exifXmpReadData z config db imgid xmp)).db dest) =
      iopprResetIopOrder (dtIopprGetIopOrderList db imgid) ↔ OrderKept db imgid := by
  rw [moduleOrder_read z config md5 altered hxmp, OrderKept, ← or_assoc, ← writesOrderList_iff]
  by_cases hwrites : writesOrderList db imgid = true
  · rw [if_pos hwrites]
    exact iff_of_true rfl (Or.inl hwrites)
  · rw [if_neg hwrites, iopprResetIopOrder_idem, eq_comm]
    exact ⟨Or.inr, fun h => h.resolve_left hwrites⟩

end

/-- A sidecar that is written and read restores the image exactly if it has no masks and the rest
of it can be told from the sidecar. -/
theorem sidecar_restores_iff {n : Nat} {historyEnd : Int}
    (hnumbered : ((db.historyOf imgid).map HistoryRow.num).Perm
      ((List.range n).map fun i : Nat => some (i : Int)))
    (hend : db.historyEnd imgid = some historyEnd) (hle : historyEnd ≤ n)
    (hfits : ∀ row ∈ db.historyOf imgid, BlobsFit row) (hxmp : KnownKeysRemoved xmp)
    (db' : Database) (dest : ImgId) (hdest : (db'.images dest).isSome) :
    RestoredFrom db imgid
        (dtExifXmpRead z md5 altered db' dest (exifXmpReadData z config db imgid xmp)).db dest ↔
      SurvivesSidecar db imgid := by
  have hnum : ∀ row ∈ db.historyOf imgid, row.num.isSome := by
    intro row hrow
    obtain ⟨i, -, hi⟩ := mem_map.mp (hnumbered.mem_iff.mp (mem_map_of_mem hrow))
    rw [← hi]
    rfl
  have hlength : (db.historyOf imgid).length = n := by
    rw [← length_map HistoryRow.num, hnumbered.length_eq, length_map, length_range]
  rw [← hlength] at hle
  have hhistory := history_restored_iff z config md5 altered hxmp hnum hfits db' dest
  constructor
  · intro h
    have hkept := hhistory.mp h.history
    have hend' := (historyEnd_restored_iff z config md5 altered hxmp hfits hkept hend hle db'
      hdest).mp h.historyEnd
    exact ⟨hkept, (masks_restored_iff z config md5 altered hxmp db' dest).mp h.masks, hend'.1,
      hend'.2, (moduleOrder_restored_iff z config md5 altered hxmp db' dest).mp h.moduleOrder⟩
  · intro h
    have hend' := (historyEnd_restored_iff z config md5 altered hxmp hfits h.rows hend hle db'
      hdest).mpr ⟨h.historyEnd, h.noHistoryEnd⟩
    exact ⟨hhistory.mpr h.rows, (masks_restored_iff z config md5 altered hxmp db' dest).mpr h.masks,
      hend', (moduleOrder_restored_iff z config md5 altered hxmp db' dest).mpr h.moduleOrder⟩

end RoundTrip

def sampleEdit : Database := sampleDb 2 [sampleRow 0 "exposure", sampleRow 1 "flip"]

theorem rowKept_sampleRow (num : Int) (op : String) : RowKept (sampleRow num op) :=
  ⟨rfl, rfl, rfl, Or.inr rfl, rfl, rfl, nofun, rfl, nofun⟩

theorem knownKeysRemoved_nil : KnownKeysRemoved [] := ⟨fun _ h => absurd h not_mem_nil, not_mem_nil⟩

theorem survivesSidecar_sampleEdit : SurvivesSidecar sampleEdit 1 where
  rows := by
    show ∀ row ∈ [sampleRow 0 "exposure", sampleRow 1 "flip"], RowKept row
    rw [forall_mem_cons, forall_mem_singleton]
    exact ⟨rowKept_sampleRow _ _, rowKept_sampleRow _ _⟩
  masks := rfl
  historyEnd := by decide
  noHistoryEnd h := absurd h (by decide)
  moduleOrder := Or.inr (Or.inr rfl)

theorem sidecar_restores_sampleEdit :
    SurvivesSidecar sampleEdit 1 ∧
      RestoredFrom sampleEdit 1
        (dtExifXmpRead storedExiv2 id false (sampleDb 0 []) 1
          (exifXmpReadData storedExiv2 .onlyLargeEntries sampleEdit 1 [])).db 1 :=
  ⟨survivesSidecar_sampleEdit,
    (sidecar_restores_iff storedExiv2 .onlyLargeEntries id false (n := 2) (by decide) rfl
      (by decide) (by decide) knownKeysRemoved_nil (sampleDb 0 []) 1 rfl).mpr
      survivesSidecar_sampleEdit⟩

/-- The mask is in the sidecar, and the image that the sidecar is read into has none. -/
theorem sidecar_loses_mask :
    ((sampleSpots.historyOf 1).map HistoryRow.num).Perm ((List.range 1).map (some ∘ Int.ofNat)) ∧
      sampleSpots.historyEnd 1 = some 1 ∧
      (valueOf? (masksFieldKey 1 "mask_name")
        (exifXmpReadData storedExiv2 .onlyLargeEntries sampleSpots 1 [])) =
          some "circle #1".toList ∧
      (dtExifXmpRead storedExiv2 id false (sampleDb 0 []) 1
        (exifXmpReadData storedExiv2 .onlyLargeEntries sampleSpots 1 [])).db.masksOf 1 = [] ∧
      ¬ RestoredFrom sampleSpots 1
        (dtExifXmpRead storedExiv2 id false (sampleDb 0 []) 1
          (exifXmpReadData storedExiv2 .onlyLargeEntries sampleSpots 1 [])).db 1 := by
  have hmasks : (dtExifXmpRead storedExiv2 id false (sampleDb 0 []) 1
      (exifXmpReadData storedExiv2 .onlyLargeEntries sampleSpots 1 [])).db.masksByNum 1 = [] :=
    masksByNum_read storedExiv2 .onlyLargeEntries id false knownKeysRemoved_nil (sampleDb 0 []) 1
  refine ⟨by decide, rfl, by decide +kernel, ?_, ?_⟩
  · exact nil_perm.mp (hmasks ▸ orderByNum_perm _ _)
  · intro h
    have hrows := hmasks.symm.trans h.masks
    cases hrows

end DTLite
