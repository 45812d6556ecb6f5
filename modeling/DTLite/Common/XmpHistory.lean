import DTLite.Common.ExifXmp

/-!
# The history stack in a sidecar

The keys that `dt_set_xmp_dt_history` writes for the rows of the history, and what
`read_history_v2` makes of them: one entry for each row that names an operation.
-/

namespace DTLite

open Reasoning Database List HistoryEntry HistoryScan

-- The keys that `read_history_v2` looks at.
def isHistoryField (key : Text) : Bool := historyArray.isPrefixOf key

theorem historyFieldKey_eq (num : Nat) (field : String) :
    historyFieldKey num field =
      historyArray ++ (printInt num ++ ']' :: '/' :: ("darktable:".toList ++ field.toList)) := by
  rw [historyFieldKey, append_assoc]
  rfl

theorem isHistoryField_fieldKey (num : Nat) (field : String) :
    isHistoryField (historyFieldKey num field) = true := by
  exact isPrefixOf_iff_prefix.mpr (prefix_append ..)

theorem strtol_fieldKey (num : Nat) (field : String) :
    strtol (printInt num ++ ']' :: '/' :: ("darktable:".toList ++ field.toList)) =
      some ((num : Int), ']' :: '/' :: ("darktable:".toList ++ field.toList)) := by
  apply strtol_printInt_append
  intro c hc
  cases hc
  decide

theorem historyFieldKey_inj {num num' : Nat} {field field' : String}
    (h : historyFieldKey num field = historyFieldKey num' field') :
    num = num' ∧ field = field' := by
  rw [historyFieldKey_eq, historyFieldKey_eq] at h
  have hparsed := congrArg strtol (append_cancel_left h)
  rw [strtol_fieldKey, strtol_fieldKey, Option.some.injEq, Prod.mk.injEq] at hparsed
  have hfields := append_cancel_left (cons.inj (cons.inj hparsed.2).2).2
  exact ⟨Int.ofNat.inj hparsed.1, String.toList_inj.mp hfields⟩

/-! ## Reading what was written -/

section ReadFields

variable (z : Exiv2)

theorem readHistoryKey_skip (s : HistoryScan) (datum : Text × Text)
    (h : isHistoryField datum.1 = false) : readHistoryKey z s datum = some s := by
  rw [readHistoryKey, if_neg (by rw [show historyArray.isPrefixOf datum.1 = false from h]; decide)]

theorem readHistoryKey_fieldKey (s : HistoryScan) (num : Nat) (field : String) (value : Text) :
    readHistoryKey z s (historyFieldKey num field, value) =
      (s.select num).fill z value (historyField? ("darktable:".toList ++ field.toList)) := by
  have hdrop : (historyFieldKey num field).drop historyArray.length =
      printInt num ++ ']' :: '/' :: ("darktable:".toList ++ field.toList) := by
    rw [historyFieldKey_eq, drop_left]
  show readArrayItem z s ((strtol ((historyFieldKey num field).drop historyArray.length)).getD _).1
    value ((strtol ((historyFieldKey num field).drop historyArray.length)).getD _).2 = _
  rw [hdrop, strtol_fieldKey]
  rfl

theorem modify_append_singleton {α : Type} (l : List α) (a : α) (f : α → α) :
    (l ++ [a]).modify l.length f = l ++ [f a] := by
  induction l with
  | nil => rfl
  | cons b l ih =>
    rw [cons_append, length_cons, modify_succ_cons, ih]
    rfl

variable (entries : List HistoryEntry) (entry : HistoryEntry)

theorem fill_last (value : Text) (field : Option HistoryField) :
    fill z ⟨entries ++ [entry], some entries.length⟩ value field =
      some ⟨entries ++ [entry.set z value field], some entries.length⟩ := by
  show some (mk ((entries ++ [entry]).modify entries.length _) _) = _
  rw [modify_append_singleton]

/-- The first field of an entry makes room for it. -/
theorem readHistoryKey_first (current : Option Nat) (field : String) (value : Text) :
    readHistoryKey z ⟨entries, current⟩ (historyFieldKey (entries.length + 1) field, value) =
      some ⟨entries ++ [set z {} value
        (historyField? ("darktable:".toList ++ field.toList))], some entries.length⟩ := by
  have hselect : select ⟨entries, current⟩ (entries.length + 1 : Nat) =
      ⟨entries ++ [mk none false none none none 0 1 none 0], some entries.length⟩ :=
    if_pos (Or.inr (by show (entries.length : Int) < _; omega))
  rw [readHistoryKey_fieldKey, hselect, fill_last]

/-- The other fields go to the entry at the end. -/
theorem readHistoryKey_next (field : String) (value : Text) :
    readHistoryKey z ⟨entries ++ [entry], some entries.length⟩
        (historyFieldKey (entries.length + 1) field, value) =
      some ⟨entries ++ [entry.set z value
        (historyField? ("darktable:".toList ++ field.toList))], some entries.length⟩ := by
  have hselect : select ⟨entries ++ [entry], some entries.length⟩
      (entries.length + 1 : Nat) = ⟨entries ++ [entry], some entries.length⟩ := by
    rw [select, if_neg]
    · simp
    · simp
      omega
  rw [readHistoryKey_fieldKey, hselect, fill_last]

def setField (entry : HistoryEntry) (field : String × Text) : HistoryEntry :=
  entry.set z field.2 (historyField? ("darktable:".toList ++ field.1.toList))

def fieldKeys (num : Nat) (fields : List (String × Text)) : XmpData :=
  fields.map fun field => (historyFieldKey num field.1, field.2)

theorem readFields_next (fields : List (String × Text)) (entries : List HistoryEntry)
    (entry : HistoryEntry) :
    (fieldKeys (entries.length + 1) fields).foldlM (readHistoryKey z)
        ⟨entries ++ [entry], some entries.length⟩ =
      some ⟨entries ++ [fields.foldl (setField z) entry], some entries.length⟩ := by
  induction fields generalizing entry with
  | nil => rfl
  | cons field fields ih =>
    rw [fieldKeys, map_cons, foldlM_cons, readHistoryKey_next]
    exact ih _

variable (config : CompressXmpTags)

def writtenEntry (row : HistoryRow) (operation : String) : HistoryEntry where
  operation := some operation
  enabled := columnInt row.enabled == 1
  modversion := some (columnInt row.module)
  params := some (some (row.opParams.getD []))
  multiName := some (row.multiName.getD "")
  multiPriority := columnInt row.multiPriority
  blendopVersion :=
    if (columnBlob row.blendopParams).isSome then columnInt row.blendopVersion else 1
  blendopParams := columnBlob row.blendopParams
  num := columnInt row.num

-- No column of sqlite is longer than `SQLITE_MAX_LENGTH`, so the sizes of the texts are an `int`.
def BlobsFit (row : HistoryRow) : Prop :=
  (row.opParams.getD []).length ≤ 10 ^ 9 ∧ (row.blendopParams.getD []).length ≤ 10 ^ 9

instance decidableBlobsFit (row : HistoryRow) : Decidable (BlobsFit row) :=
  inferInstanceAs (Decidable (_ ∧ _))

theorem historyField?_written :
    historyField? ("darktable:".toList ++ "num".toList) = some .num ∧
      historyField? ("darktable:".toList ++ "operation".toList) = some .operation ∧
      historyField? ("darktable:".toList ++ "enabled".toList) = some .enabled ∧
      historyField? ("darktable:".toList ++ "modversion".toList) = some .modversion ∧
      historyField? ("darktable:".toList ++ "params".toList) = some .params ∧
      historyField? ("darktable:".toList ++ "multi_name".toList) = some .multiName ∧
      historyField? ("darktable:".toList ++ "multi_priority".toList) = some .multiPriority ∧
      historyField? ("darktable:".toList ++ "blendop_version".toList) = some .blendopVersion ∧
      historyField? ("darktable:".toList ++ "blendop_params".toList) = some .blendopParams := by
  decide +kernel

theorem setField_of_known {name : String} {field : HistoryField}
    (h : historyField? ("darktable:".toList ++ name.toList) = some field) (entry : HistoryEntry)
    (value : Text) : setField z entry (name, value) = entry.set z value (some field) := by
  rw [setField, h]

theorem setField_fields {row : HistoryRow} (hrow : BlobsFit row) (operation : String) :
    (historyFields z config row operation).foldl (setField z) {} = writtenEntry row operation := by
  have hparams := decode_encode z config (Nat.lt_of_le_of_lt hrow.1 (by decide))
  obtain ⟨hnum, hoperation, henabled, hmodversion, hparams', hname, hpriority, hversion, hblend'⟩ :=
    historyField?_written
  rw [historyFields, writtenEntry, foldl_append]
  simp only [foldl_cons, setField_of_known z hnum, setField_of_known z hoperation,
    setField_of_known z henabled, setField_of_known z hmodversion, setField_of_known z hparams',
    setField_of_known z hname, setField_of_known z hpriority, HistoryEntry.set,
    Exiv2.toLong_printInt, String.ofList_toList, hparams]
  cases hblend : columnBlob row.blendopParams with
  | none => rfl
  | some blend =>
    have hlength : blend.length < 2 ^ 31 := by
      have hsome := (Option.filter_eq_some_iff.mp hblend).1
      have hfits := hrow.2
      rw [hsome] at hfits
      exact Nat.lt_of_le_of_lt hfits (by decide)
    simp only [foldl_cons, setField_of_known z hversion, setField_of_known z hblend',
      HistoryEntry.set, Exiv2.toLong_printInt, decode_encode z config hlength]
    rfl

def rowsKeys : Nat → List HistoryRow → XmpData
  | _, [] => []
  | num, row :: rows =>
      match row.operation with
      | none => rowsKeys num rows
      | some operation =>
          fieldKeys num (historyFields z config row operation) ++ rowsKeys (num + 1) rows

def writtenEntries (rows : List HistoryRow) : List HistoryEntry :=
  rows.filterMap fun row => row.operation.map (writtenEntry row)

theorem readRow {row : HistoryRow} (hrow : BlobsFit row) (operation : String)
    (entries : List HistoryEntry) (current : Option Nat) :
    (fieldKeys (entries.length + 1) (historyFields z config row operation)).foldlM
        (readHistoryKey z) ⟨entries, current⟩ =
      some ⟨entries ++ [writtenEntry row operation], some entries.length⟩ := by
  rw [← setField_fields z config hrow operation]
  obtain ⟨field, fields, hfields⟩ : ∃ field fields,
      historyFields z config row operation = field :: fields := ⟨_, _, rfl⟩
  rw [hfields, fieldKeys, map_cons, foldlM_cons, readHistoryKey_first]
  exact readFields_next z fields entries _

theorem readRows {rows : List HistoryRow} (hrows : ∀ row ∈ rows, BlobsFit row)
    (entries : List HistoryEntry) (current : Option Nat) :
    ∃ last, (rowsKeys z config (entries.length + 1) rows).foldlM (readHistoryKey z)
      ⟨entries, current⟩ = some ⟨entries ++ writtenEntries rows, last⟩ := by
  induction rows generalizing entries current with
  | nil => exact ⟨current, by rw [writtenEntries, filterMap_nil, append_nil]; rfl⟩
  | cons row rows ih =>
    have hrest := fun row' h => hrows row' (mem_cons_of_mem row h)
    rw [rowsKeys, writtenEntries]
    cases hop : row.operation with
    | none =>
      rw [filterMap_cons_none (by rw [hop]; rfl)]
      exact ih hrest entries current
    | some operation =>
      rw [filterMap_cons_some (by rw [hop]; rfl)]
      rw [foldlM_append, readRow z config (hrows row mem_cons_self)]
      obtain ⟨last, hlast⟩ := ih hrest (entries ++ [writtenEntry row operation])
        (some entries.length)
      rw [length_append] at hlast
      refine ⟨last, hlast.trans ?_⟩
      rw [append_assoc]
      rfl

end ReadFields

section Written

variable (z : Exiv2) (config : CompressXmpTags)

-- The keys that stand for themselves.
def fixedKeys : List Text :=
  [xmpVersionKey, autoPresetsAppliedKey, historyEndKey, iopOrderVersionKey, iopOrderListKey,
    basicHashKey, autoHashKey, currentHashKey]

theorem fixedKeys_spec : fixedKeys.Nodup ∧ ∀ key ∈ fixedKeys,
    key ≠ historyKey ∧ isHistoryField key = false ∧ ¬ masksHistoryKey <+: key := by
  decide +kernel

theorem fixedKeys_ne {i j : Fin 8} (hne : i ≠ j) : fixedKeys.get i ≠ fixedKeys.get j :=
  fun h => hne (nodup_iff_injective_get.mp fixedKeys_spec.1 h)

-- No key belongs to the history stack: `dt_remove_known_keys` took them out.
def NoHistory (xmp : XmpData) : Prop :=
  ∀ key ∈ xmp.map Prod.fst, key ≠ historyKey ∧ isHistoryField key = false

variable {xmp : XmpData} {key : Text}

theorem NoHistory.assign (h : NoHistory xmp) (hkey : key ∈ fixedKeys) (value : Text) :
    NoHistory (assign key value xmp) := by
  obtain ⟨hroot, hfield, -⟩ := fixedKeys_spec.2 key hkey
  intro key' hkey'
  rcases mem_keys_assign.mp hkey' with rfl | hmem
  · exact ⟨hroot, hfield⟩
  · exact h key' hmem

theorem entriesFrom_assign_fixed (hkey : key ∈ fixedKeys) (value : Text) (xmp : XmpData) :
    entriesFrom historyKey isHistoryField (assign key value xmp) =
      entriesFrom historyKey isHistoryField xmp := by
  obtain ⟨hroot, hfield, -⟩ := fixedKeys_spec.2 key hkey
  exact entriesFrom_assign_of_not hroot hfield value

theorem historyFields_nodup (row : HistoryRow) (operation : String) :
    ((historyFields z config row operation).map Prod.fst).Nodup := by
  rw [historyFields]
  cases columnBlob row.blendopParams with
  | none =>
    show ["num", "operation", "enabled", "modversion", "params", "multi_name",
      "multi_priority"].Nodup
    decide
  | some blend =>
    show ["num", "operation", "enabled", "modversion", "params", "multi_name", "multi_priority",
      "blendop_version", "blendop_params"].Nodup
    decide

theorem writeHistory_eq (rows : List HistoryRow) (num : Nat) (xmp : XmpData)
    (hnew : ∀ j, num ≤ j → ∀ field, historyFieldKey j field ∉ xmp.map Prod.fst) :
    writeHistory z config num rows xmp =
      (xmp ++ rowsKeys z config num rows, num + (writtenEntries rows).length) := by
  induction rows generalizing num xmp with
  | nil => rw [rowsKeys, append_nil]; rfl
  | cons row rows ih =>
    rw [writeHistory, rowsKeys, writtenEntries]
    cases hop : row.operation with
    | none =>
      rw [filterMap_cons_none (by rw [hop]; rfl)]
      exact ih num xmp hnew
    | some operation =>
      rw [filterMap_cons_some (by rw [hop]; rfl)]
      have hfields : assignAll (historyFieldKey num) (historyFields z config row operation) xmp =
          xmp ++ fieldKeys num (historyFields z config row operation) :=
        assignAll_of_new (fun _ _ h => (historyFieldKey_inj h).2)
          (historyFields_nodup z config row operation) fun field _ => hnew num (le_refl num) field.1
      show writeHistory z config (num + 1) rows (assignAll _ _ xmp) = _
      rw [hfields, ih]
      · rw [append_assoc, Nat.add_assoc, Nat.add_comm 1]
        rfl
      · intro j hj field hmem
        rw [map_append, mem_append] at hmem
        rcases hmem with hmem | hmem
        · exact hnew j (by omega) field hmem
        · obtain ⟨datum, hdatum, hkey⟩ := mem_map.mp hmem
          obtain ⟨field', -, rfl⟩ := mem_map.mp hdatum
          have hsame := (historyFieldKey_inj hkey).1
          omega

theorem rowsKeys_isHistoryField (rows : List HistoryRow) (num : Nat) :
    ∀ datum ∈ rowsKeys z config num rows, isHistoryField datum.1 = true := by
  induction rows generalizing num with
  | nil => exact fun datum h => absurd h not_mem_nil
  | cons row rows ih =>
    intro datum hdatum
    rw [rowsKeys] at hdatum
    cases hop : row.operation with
    | none =>
      rw [hop] at hdatum
      exact ih num datum hdatum
    | some operation =>
      rw [hop] at hdatum
      rcases mem_append.mp hdatum with hmem | hmem
      · obtain ⟨field, -, rfl⟩ := mem_map.mp hmem
        exact isHistoryField_fieldKey num field.1
      · exact ih (num + 1) datum hmem

theorem masksHistoryKey_prefix_fieldKey (num : Nat) (field : String) :
    masksHistoryKey <+: masksFieldKey num field := by
  have harray : masksArray = masksHistoryKey ++ ['['] := by decide
  have hkey : masksFieldKey num field = masksHistoryKey ++ (['['] ++ (printInt num ++
      ("]/darktable:".toList ++ field.toList))) := by
    rw [masksFieldKey, harray, append_assoc, append_assoc, append_assoc]
  exact ⟨_, hkey.symm⟩

theorem writeMasks_keys (rows : List MasksRow) (num : Nat) (xmp : XmpData)
    (hkey : key ∈ (writeMasks z config num rows xmp).map Prod.fst) :
    key ∈ xmp.map Prod.fst ∨ masksHistoryKey <+: key := by
  induction rows generalizing num xmp with
  | nil => exact Or.inl hkey
  | cons row rows ih =>
    rcases ih (num + 1) _ hkey with hmem | hmasks
    · rcases mem_keys_assignAll.mp hmem with hmem | ⟨field, -, rfl⟩
      · exact Or.inl hmem
      · exact Or.inr (masksHistoryKey_prefix_fieldKey num field.1)
    · exact Or.inr hmasks

theorem writeMasks_valueOf? (rows : List MasksRow) (num : Nat) (xmp : XmpData)
    (hkey : ¬ masksHistoryKey <+: key) :
    valueOf? key (writeMasks z config num rows xmp) = valueOf? key xmp := by
  induction rows generalizing num xmp with
  | nil => rfl
  | cons row rows ih =>
    rw [writeMasks, ih, valueOf?_assignAll_of_ne]
    rintro field - rfl
    exact hkey (masksHistoryKey_prefix_fieldKey num field.1)

theorem not_prefix_of_masksHistoryKey {first : Text} (h : masksHistoryKey <+: key)
    (hne : ¬ masksHistoryKey <+: first) (hne' : ¬ first <+: masksHistoryKey) : ¬ first <+: key := by
  intro hfirst
  rcases prefix_or_prefix_of_prefix h hfirst with hle | hle
  · exact hne hle
  · exact hne' hle

theorem NoHistory.writeMasks (h : NoHistory xmp) (rows : List MasksRow) :
    NoHistory (writeMasks z config 1 rows (xmp ++ [(masksHistoryKey, [])])) := by
  intro key hkey
  -- every key is an old one, the root of the masks or one of their fields
  have hcases : key ∈ xmp.map Prod.fst ∨ masksHistoryKey <+: key := by
    rcases writeMasks_keys z config rows 1 _ hkey with hmem | hmasks
    · rw [map_append, mem_append] at hmem
      rcases hmem with hmem | hmem
      · exact Or.inl hmem
      · rw [mem_singleton.mp hmem]
        exact Or.inr prefix_rfl
    · exact Or.inr hmasks
  rcases hcases with hmem | hmasks
  · exact h key hmem
  · constructor
    · rintro rfl
      exact absurd hmasks (by decide)
    · rw [Bool.eq_false_iff]
      intro hfield
      exact not_prefix_of_masksHistoryKey hmasks (by decide) (by decide)
        (List.isPrefixOf_iff_prefix.mp hfield)

def writtenEnd (historyEnd : Int) (count : Nat) : Int :=
  if historyEnd = -1 then count else min historyEnd count

section

variable (h : NoHistory xmp) (db : Database) (imgid : ImgId)
include h

/-- `dt_set_xmp_dt_history` puts the masks, then the history stack, behind the keys there are. -/
theorem dtSetXmpDtHistory_eq
    (historyEnd : Int) : dtSetXmpDtHistory z config db imgid historyEnd xmp =
      assign historyEndKey
        (printInt (writtenEnd historyEnd (writtenEntries (db.historyByNum imgid)).length))
        (writeMasks z config 1 (db.masksByNum imgid) (xmp ++ [(masksHistoryKey, [])])
          ++ [(historyKey, [])] ++ rowsKeys z config 1 (db.historyByNum imgid)) := by
  have hmasks := h.writeMasks z config (db.masksByNum imgid)
  have hnew : ∀ j, 1 ≤ j → ∀ field, historyFieldKey j field ∉
      (writeMasks z config 1 (db.masksByNum imgid) (xmp ++ [(masksHistoryKey, [])])
        ++ [(historyKey, [])]).map Prod.fst := by
    intro j _ field hmem
    have hfield := isHistoryField_fieldKey j field
    rw [map_append, mem_append] at hmem
    rcases hmem with hmem | hmem
    · exact absurd hfield (by rw [(hmasks _ hmem).2]; decide)
    · rw [mem_singleton.mp hmem] at hfield
      cases hfield
  have hcount : ∀ count : Nat, ((1 + count : Nat) : Int) - 1 = count := by
    intro count
    omega
  simp only [dtSetXmpDtHistory, writeHistory_eq z config _ 1 _ hnew, hcount, writtenEnd]

theorem entriesFrom_dtSetXmpDtHistory (historyEnd : Int) :
    entriesFrom historyKey isHistoryField (dtSetXmpDtHistory z config db imgid historyEnd xmp) =
      rowsKeys z config 1 (db.historyByNum imgid) := by
  have hroot : historyKey ∉ (writeMasks z config 1 (db.masksByNum imgid)
      (xmp ++ [(masksHistoryKey, [])])).map Prod.fst :=
    fun hmem => (h.writeMasks z config (db.masksByNum imgid) historyKey hmem).1 rfl
  have hfields := rowsKeys_isHistoryField z config (db.historyByNum imgid) 1
  rw [dtSetXmpDtHistory_eq z config h, entriesFrom_assign_fixed (by simp [fixedKeys]),
    entriesFrom_append (by simp), entriesFrom_append_root hroot (by decide),
    filter_eq_self.mpr hfields, nil_append]

theorem valueOf?_dtSetXmpDtHistory
    (historyEnd : Int) (hkey : key ∈ fixedKeys) (hend : key ≠ historyEndKey) :
    valueOf? key (dtSetXmpDtHistory z config db imgid historyEnd xmp) = valueOf? key xmp := by
  obtain ⟨hroot, hfield, hmasks⟩ := fixedKeys_spec.2 key hkey
  have hrows : key ∉ (rowsKeys z config 1 (db.historyByNum imgid)).map Prod.fst := by
    intro hmem
    obtain ⟨datum, hdatum, rfl⟩ := mem_map.mp hmem
    rw [rowsKeys_isHistoryField z config _ 1 datum hdatum] at hfield
    cases hfield
  have hmasksRoot : key ≠ masksHistoryKey := by
    rintro rfl
    exact hmasks prefix_rfl
  rw [dtSetXmpDtHistory_eq z config h, valueOf?_assign_of_ne hend, valueOf?_append hrows,
    valueOf?_append (by simpa using hroot), writeMasks_valueOf? z config _ _ _ hmasks,
    valueOf?_append (by simpa using hmasksRoot)]

theorem historyEnd_dtSetXmpDtHistory (historyEnd : Int) :
    valueOf? historyEndKey (dtSetXmpDtHistory z config db imgid historyEnd xmp) =
      some (printInt (writtenEnd historyEnd
        (writtenEntries (db.historyByNum imgid)).length)) := by
  rw [dtSetXmpDtHistory_eq z config h, valueOf?_assign]

end

/-- What `read_history_v2` makes of the history stack. -/
theorem readHistoryV2_of_entriesFrom {rows : List HistoryRow}
    (hxmp : entriesFrom historyKey isHistoryField xmp = rowsKeys z config 1 rows)
    (hrows : ∀ row ∈ rows, BlobsFit row) : readHistoryV2 z xmp = writtenEntries rows := by
  have hcomplete : (writtenEntries rows).all complete = true := by
    rw [all_eq_true]
    intro entry hentry
    obtain ⟨row, -, hrow⟩ := mem_filterMap.mp hentry
    obtain ⟨operation, -, rfl⟩ := Option.map_eq_some_iff.mp hrow
    rfl
  obtain ⟨last, hlast⟩ := readRows z config hrows [] none
  -- the other keys are passed over
  rw [readHistoryV2, foldlM_entriesFrom (p := isHistoryField) (readHistoryKey_skip z), hxmp,
    show (rowsKeys z config 1 rows).foldlM _ _ = _ from hlast]
  exact if_pos hcomplete

end Written

end DTLite
