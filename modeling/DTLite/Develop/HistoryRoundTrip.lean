import DTLite.Develop.LoadedRows

/-!
# Writing the history and reading it back

The writer numbers the items by their positions and gives each form a row with the number of its
item, so that the reader can put it back.
-/

namespace DTLite

open Reasoning List Option Database

/-! ## The rows that are written -/

section Written

variable (inst : Installation) (dev : Develop) (imgid : ImgId)

def itemRows : Nat → List (HistoryItem ModuleRef) → List HistoryRow
  | _, [] => []
  | num, h :: history =>
      writeItemColumns inst dev h (blankRow imgid num) :: itemRows (num + 1) history

def formRows (num : Int) (forms : List MasksForm) : List MasksRow :=
  forms.filterMap fun form => (pointStructSize form.type).map (masksRow imgid num form)

def itemFormRows : Nat → List (HistoryItem ModuleRef) → List MasksRow
  | _, [] => []
  | num, h :: history => formRows imgid num h.forms ++ itemFormRows (num + 1) history

variable {inst dev imgid} {db : Database}

theorem writeItemRow_of_new {num : Int} (h : HistoryItem ModuleRef)
    (hnew : ∀ row ∈ db.history, row.imgid = imgid → row.num ≠ some num) :
    writeItemRow inst dev db imgid h num =
      db.insertHistory [writeItemColumns inst dev h (blankRow imgid num)] := by
  have hnone : ∀ row ∈ db.history, ¬ (row.imgid == imgid && row.num == some num) = true := by
    intro row hrow hitem
    rw [Bool.and_eq_true, beq_iff_eq, beq_iff_eq] at hitem
    exact hnew row hrow hitem.1 hitem.2
  have hkeep : db.history.map (fun row =>
      if row.imgid == imgid && row.num == some num then writeItemColumns inst dev h row else row) =
      db.history := by
    conv_rhs => rw [← map_id db.history]
    exact map_congr_left fun row hrow => if_neg (hnone row hrow)
  have hself : (imgid == imgid && some num == some num) = true := by simp
  rw [writeItemRow, if_neg (by simpa using hnone)]
  simp only [insertHistory, map_append, hkeep, map_singleton, blankRow, hself, if_true]

theorem writeForms_eq (db : Database) (num : Int) (forms : List MasksForm) :
    forms.foldl (fun db form => dtMasksWriteMasksHistoryItem db imgid num form) db =
      db.insertMasks (formRows imgid num forms) := by
  induction forms generalizing db with
  | nil => simp [insertMasks, formRows]
  | cons form forms ih =>
    rw [foldl_cons, ih, dtMasksWriteMasksHistoryItem]
    cases hsize : pointStructSize form.type with
    | none => simp [formRows, hsize]
    | some size => simp [insertMasks, formRows, hsize]

variable {num : Nat} {row : MasksRow}

theorem writeItems_eq (history : List (HistoryItem ModuleRef))
    (hnew : ∀ row ∈ db.history, row.imgid = imgid → ∀ k ≥ num, row.num ≠ some (k : Int)) :
    writeItems inst dev imgid db num history =
      (db.insertHistory (itemRows inst dev imgid num history)).insertMasks
        (itemFormRows imgid num history) := by
  induction history generalizing db num with
  | nil => simp [writeItems, itemRows, itemFormRows, insertHistory, insertMasks]
  | cons h history ih =>
    have hrow : writeItemRow inst dev db imgid h num =
        db.insertHistory [writeItemColumns inst dev h (blankRow imgid num)] :=
      writeItemRow_of_new h fun row hrow himg => hnew row hrow himg num (le_refl _)
    rw [writeItems, dtDevWriteHistoryItem, writeForms_eq, hrow, ih]
    · simp [itemRows, itemFormRows, insertHistory, insertMasks]
    · -- the row just written has the number `num`
      intro row hrow himg k hk
      rcases mem_append.mp hrow with hrow | hrow
      · exact hnew row hrow himg k (Nat.le_of_succ_le hk)
      · rw [mem_singleton.mp hrow]
        show some (num : Int) ≠ some (k : Int)
        simp only [ne_eq, some.injEq]
        omega

variable {history : List (HistoryItem ModuleRef)}

theorem mem_itemRows {row : HistoryRow} (hrow : row ∈ itemRows inst dev imgid num history) :
    row.imgid = imgid ∧ ∃ k : Nat, num ≤ k ∧ row.num = some (k : Int) := by
  induction history generalizing num with
  | nil => cases hrow
  | cons h history ih =>
    rcases mem_cons.mp hrow with rfl | hrow
    · exact ⟨rfl, num, le_refl _, rfl⟩
    · obtain ⟨himg, k, hk, hnum⟩ := ih hrow
      exact ⟨himg, k, Nat.le_of_succ_le hk, hnum⟩

variable {forms : List MasksForm}

theorem mem_formRows {num : Int} (hrow : row ∈ formRows imgid num forms) :
    row.imgid = imgid ∧ row.num = some num := by
  obtain ⟨form, _, hform⟩ := mem_filterMap.mp hrow
  obtain ⟨size, _, rfl⟩ := map_eq_some_iff.mp hform
  exact ⟨rfl, rfl⟩

theorem mem_itemFormRows (hrow : row ∈ itemFormRows imgid num history) :
    row.imgid = imgid ∧ ∃ k : Nat, num ≤ k ∧ row.num = some (k : Int) := by
  induction history generalizing num with
  | nil => cases hrow
  | cons h history ih =>
    rcases mem_append.mp hrow with hrow | hrow
    · exact (mem_formRows hrow).imp_right fun hnum => ⟨num, le_refl _, hnum⟩
    · obtain ⟨himg, k, hk, hnum⟩ := ih hrow
      exact ⟨himg, k, Nat.le_of_succ_le hk, hnum⟩

theorem devWriteHistory_eq (db : Database) (imgid : ImgId) :
    devWriteHistory inst dev db imgid =
      ((cleanupHistory db imgid).insertHistory (itemRows inst dev imgid 0 dev.history)).insertMasks
        (itemFormRows imgid 0 dev.history) := by
  apply writeItems_eq
  intro row hrow himg
  exact absurd himg (of_decide_eq_true (mem_filter.mp hrow).2)

/-- After the write the image has the rows of the items and of their forms, and no others. -/
theorem dtDevWriteHistoryExt_spec (db : Database) :
    let written := dtDevWriteHistoryExt inst dev db imgid
    written.historyOf imgid = itemRows inst dev imgid 0 dev.history ∧
      written.masksOf imgid = itemFormRows imgid 0 dev.history ∧
      written.historyEnd imgid = (db.images imgid).map fun _ => (dev.historyEnd : Int) := by
  obtain ⟨hashes, hhash⟩ := dtHistoryHashWriteFromHistory_eq inst.md5
    (dtIopprWriteIopOrderList ((devWriteHistory inst dev db imgid).setHistoryEnd imgid
      (some dev.historyEnd)) dev.iopOrderList imgid) imgid { current := true }
  intro written
  have hwritten : written = _ := hhash
  rw [devWriteHistory_eq] at hwritten
  rw [hwritten]
  refine ⟨?_, ?_, ?_⟩
  · show ((cleanupHistory db imgid).insertHistory _).historyOf imgid = _
    rw [historyOf_insertHistory _ _ fun row hrow => (mem_itemRows hrow).1]
    show (db.deleteHistory imgid).historyOf imgid ++ _ = _
    rw [historyOf_deleteHistory, nil_append]
  · show ((cleanupHistory db imgid).insertMasks _).masksOf imgid = _
    rw [masksOf_insertMasks _ _ fun row hrow => (mem_itemFormRows hrow).1]
    show (db.deleteMasks imgid).masksOf imgid ++ _ = _
    rw [masksOf_deleteMasks, nil_append]
  · show (db.setHistoryEnd imgid (some dev.historyEnd)).historyEnd imgid = _
    rw [historyEnd_setHistoryEnd]
    cases db.images imgid <;> rfl

theorem itemRows_sorted (num : Nat) (history : List (HistoryItem ModuleRef)) :
    (itemRows inst dev imgid num history).Pairwise fun a b => numLe a.num b.num := by
  induction history generalizing num with
  | nil => exact .nil
  | cons h history ih =>
    refine .cons (fun row hrow => ?_) (ih (num + 1))
    obtain ⟨-, k, hk, hnum⟩ := mem_itemRows hrow
    rw [hnum]
    show (num : Int) ≤ k
    omega

theorem itemFormRows_sorted (num : Nat) (history : List (HistoryItem ModuleRef)) :
    (itemFormRows imgid num history).Pairwise fun a b => numLe a.num b.num := by
  induction history generalizing num with
  | nil => exact .nil
  | cons h history ih =>
    refine pairwise_append.mpr ⟨?_, ih (num + 1), ?_⟩
    · refine pairwise_of_forall_mem_list fun a ha b hb => ?_
      rw [(mem_formRows ha).2, (mem_formRows hb).2]
      exact le_refl (num : Int)
    · intro a ha b hb
      obtain ⟨-, k, hk, hnum⟩ := mem_itemFormRows hb
      rw [(mem_formRows ha).2, hnum]
      show (num : Int) ≤ k
      omega

theorem itemRows_getElem? (num k : Nat) (history : List (HistoryItem ModuleRef)) :
    (itemRows inst dev imgid num history)[k]? =
      history[k]?.map fun h => writeItemColumns inst dev h (blankRow imgid (num + k : Nat)) := by
  induction history generalizing num k with
  | nil => rfl
  | cons h history ih =>
    cases k with
    | zero => rfl
    | succ k =>
      show (itemRows inst dev imgid (num + 1) history)[k]? = history[k]?.map _
      rw [ih, Nat.add_right_comm, Nat.add_assoc]

theorem itemFormRows_filter (num k : Nat) {history : List (HistoryItem ModuleRef)}
    {h : HistoryItem ModuleRef} (hk : history[k]? = some h) :
    (itemFormRows imgid num history).filter (fun row => columnInt row.num = (num + k : Nat)) =
      formRows imgid (num + k : Nat) h.forms := by
  induction history generalizing num k with
  | nil => cases hk
  | cons g history ih =>
    rw [itemFormRows, filter_append]
    cases k with
    | zero =>
      obtain rfl : g = h := some.inj hk
      rw [filter_eq_self.mpr, filter_eq_nil_iff.mpr, append_nil]
      · rfl
      · intro row hrow
        obtain ⟨-, j, hj, hnum⟩ := mem_itemFormRows hrow
        rw [hnum]
        show ¬ decide ((j : Int) = (num + 0 : Nat)) = true
        simp only [decide_eq_true_eq]
        omega
      · intro row hrow
        rw [(mem_formRows hrow).2]
        exact decide_eq_true rfl
    | succ k =>
      rw [filter_eq_nil_iff.mpr, nil_append,
        show num + (k + 1) = num + 1 + k by omega, ih (num + 1) k hk]
      intro row hrow
      rw [(mem_formRows hrow).2]
      show ¬ decide ((num : Int) = (num + (k + 1) : Nat)) = true
      simp only [decide_eq_true_eq, Int.natCast_inj]
      omega

theorem formRows_map_formOfRow (hsized : ∀ form ∈ forms, form.Sized) (num : Int) :
    (formRows imgid num forms).map formOfRow =
      forms.filter fun form => (pointStructSize form.type).isSome := by
  induction forms with
  | nil => rfl
  | cons form forms ih =>
    have ih := ih fun f hf => hsized f (mem_cons_of_mem _ hf)
    cases hsize : pointStructSize form.type with
    | none =>
      rw [formRows, filterMap_cons_none (by rw [hsize]; rfl),
        filter_cons_of_neg (by rw [hsize]; decide)]
      exact ih
    | some size =>
      have hhead := formOfRow_masksRow (hsized form mem_cons_self) hsize imgid num
      rw [formRows, filterMap_cons_some (by rw [hsize]; rfl), map_cons, hhead,
        filter_cons_of_pos (by rw [hsize]; rfl)]
      exact congrArg (form :: ·) ih

end Written

/-! ## Reading them back -/

/-- An item of an installed module, with the sizes its arrays have. In the empty develop `w` every
installed module has its base instance, with priority 0. -/
structure InstalledItem (inst : Installation) (dev : Develop) (w : Workspace)
    (h : HistoryItem ModuleRef) : Prop where
  base : ((dev.mods h.module).op, 0) ∈ w.dev.keys
  loads : (inst.iopSo (dev.mods h.module).op).loadModule.isSome
  multiPriority : 0 ≤ h.multiPriority
  inHistory : (inst.iopSo (dev.mods h.module).op).noHistoryStack = false
  params : h.params.length = (inst.iopSo (dev.mods h.module).op).paramsSize
  blendParams : h.blendParams.length = inst.blendParamsSize
  forms : ∀ form ∈ h.forms, form.Sized

/-- The item `h'` that was read is the item `h` that was written, with the forms `forms`. -/
structure Restored (dev read : Develop) (forms : List MasksForm) (h h' : HistoryItem ModuleRef) :
    Prop where
  opName : h'.opName = (dev.mods h.module).op
  multiPriority : h'.multiPriority = h.multiPriority
  multiName : h'.multiName = h.multiName
  params : h'.params = h.params
  blendParams : h'.blendParams = h.blendParams
  enabled : h'.enabled = (alwaysOn (read.mods h'.module) || h.enabled)
  forms : h'.forms = forms

section RoundTrip

variable {inst : Installation} {dev : Develop} {w : Workspace} {imgid : ImgId}

variable {h : HistoryItem ModuleRef}

section

variable (hh : InstalledItem inst dev w h)
include hh

theorem isCurrent_writeItemColumns (row : HistoryRow) :
    isCurrent inst (dev.mods h.module).op (writeItemColumns inst dev h row) := by
  have hbytes : (h.params.take (inst.iopSo (dev.mods h.module).op).paramsSize).length =
      (inst.iopSo (dev.mods h.module).op).paramsSize := by
    rw [length_take, hh.params, Nat.min_self]
  show ((inst.iopSo _).version == (inst.iopSo _).version
    && (inst.iopSo _).paramsSize == (h.params.take _).length) = true
  rw [hbytes, beq_self_eq_true, beq_self_eq_true]
  rfl

theorem loadable_writeItemColumns {dev₀ : Develop}
    (hkeys : ∀ key ∈ w.dev.keys, key ∈ dev₀.keys) (row : HistoryRow) :
    loadable inst dev₀ (writeItemColumns inst dev h row) := by
  have hbase := hkeys _ hh.base
  have hoffer : hasModule inst dev₀.keys ((dev.mods h.module).op, h.multiPriority) := by
    rw [hasModule]
    rcases eq_or_lt_of_le hh.multiPriority with hzero | hpos
    · rw [← hzero, contains_iff_mem.mpr hbase, Bool.true_or]
    · have hany : dev₀.keys.any (·.1 == (dev.mods h.module).op) :=
        any_eq_true.mpr ⟨_, hbase, beq_self_eq_true _⟩
      simp [hpos, hany, hh.loads]
  have hparams := paramsOfRow_of_isCurrent (isCurrent_writeItemColumns hh row)
  show (hasModule inst dev₀.keys ((dev.mods h.module).op, h.multiPriority)
    && !(inst.iopSo _).noHistoryStack && (paramsOfRow inst _ _).isSome) = true
  rw [hoffer, hh.inHistory, hparams]
  rfl

theorem LoadedFrom.restored {h' : HistoryItem ModuleRef} {read : Develop} {num : Int}
    (hblend : 0 < inst.blendParamsSize)
    (hload : LoadedFrom inst read h' (writeItemColumns inst dev h (blankRow imgid num))) :
    Restored dev read h'.forms h h' := by
  have hop : h'.opName = (dev.mods h.module).op := (some.inj hload.operation).symm
  have hcurrent := isCurrent_writeItemColumns hh (blankRow imgid num)
  rw [← hop] at hcurrent
  have hblendBytes : (h.blendParams.take inst.blendParamsSize).length = inst.blendParamsSize := by
    rw [length_take, hh.blendParams, Nat.min_self]
  exact
    { opName := hop
      multiPriority := hload.multiPriority
      multiName := hload.multiName
      params := by
        rw [hload.params hcurrent]
        exact take_of_length_le (le_of_eq hh.params)
      blendParams := by
        rw [hload.blendParams hcurrent rfl hblendBytes hblend]
        exact take_of_length_le (le_of_eq hh.blendParams)
      enabled := by
        rw [hload.enabled hcurrent]
        show (_ || (if h.enabled then (1 : Int) else 0) != 0) = _
        cases h.enabled <;> rfl
      forms := rfl }

end

variable {db : Database}

theorem readDevelop_forms (hw : w.Fresh) (hempty : w.dev.history = [])
    (hnum : ∀ (k : Nat) row, (loadableRows inst w.dev db imgid)[k]? = some row →
      columnInt row.num = k) {k : Nat}
    (hk : (readDevelop inst db w imgid).dev.history[k]? = some h) :
    h.forms = ((db.masksByNum imgid).filter fun row => columnInt row.num = k).map formOfRow := by
  have hread := @readHistoryRows_read inst w hw hempty db imgid
  set dev₁ := (readHistoryRows inst db w imgid).dev with hdev₁
  obtain ⟨hlength, hloaded⟩ := forall₂_iff_getElem?.mp hread.loaded
  have hitem : ∀ (k : Nat) (g : HistoryItem ModuleRef), dev₁.history[k]? = some g → g.num = k := by
    intro k g hg
    obtain ⟨hlt, _⟩ := List.getElem?_eq_some_iff.mp hg
    have hrow := List.getElem?_eq_getElem (hlength ▸ hlt)
    rw [(hloaded k g _ hg hrow).num]
    exact hnum k _ hrow
  have hok : (⟨dev₁.history, none, none, -1⟩ : MasksReading).Ok := by
    refine ⟨hitem, ?_⟩
    symm
    rw [findIdx?_eq_none_iff]
    intro g hg
    obtain ⟨k, hk⟩ := mem_iff_getElem?.mp hg
    rw [hitem k g hk, beq_eq_false_iff_ne]
    show (k : Int) ≠ -1
    omega
  -- the item was there without forms
  have hsame := congrArg length
    (dtMasksReadMasksHistory_dropForms db { dtIopprResyncModulesOrder dev₁ with
      historyEnd := historyEndOr db imgid dev₁.historyEnd } imgid)
  rw [length_map, length_map] at hsame
  obtain ⟨hlt, _⟩ := List.getElem?_eq_some_iff.mp hk
  have hlt₁ : k < dev₁.history.length := lt_of_lt_of_eq hlt hsame
  have hget := getElem?_eq_getElem hlt₁
  have hfinal := @readMasksRows_getElem? (historyEndOr db imgid dev₁.historyEnd)
    (db.masksByNum imgid) _ hok _ _ hget
  rw [hread.forms _ (getElem_mem hlt₁), nil_append] at hfinal
  have heq : some h = _ := hk.symm.trans hfinal
  rw [some.inj heq]

theorem loadableRows_written {dev₀ : Develop}
    (hitems : ∀ h ∈ dev.history, InstalledItem inst dev w h)
    (hkeys : ∀ key ∈ w.dev.keys, key ∈ dev₀.keys)
    (hrows : db.historyOf imgid = itemRows inst dev imgid 0 dev.history) :
    loadableRows inst dev₀ db imgid = itemRows inst dev imgid 0 dev.history := by
  rw [loadableRows, historyByNum, hrows, orderByNum_of_sorted (itemRows_sorted ..), filter_eq_self]
  intro row hrow
  obtain ⟨k, hk⟩ := mem_iff_getElem?.mp hrow
  rw [itemRows_getElem?] at hk
  obtain ⟨h, hh, rfl⟩ := map_eq_some_iff.mp hk
  exact loadable_writeItemColumns (hitems h (mem_of_getElem? hh)) hkeys _

/-- A history that was written is read back item by item, each with those of its forms that have
functions. -/
theorem readDevelop_written {w₀ : Workspace} (hw : w₀.Fresh)
    (hempty : w₀.dev.history = []) (hblend : 0 < inst.blendParamsSize)
    (hitems : ∀ h ∈ dev.history, InstalledItem inst dev w h)
    (hkeys : ∀ key ∈ w.dev.keys, key ∈ w₀.dev.keys)
    (hrows : db.historyOf imgid = itemRows inst dev imgid 0 dev.history)
    (hmasks : db.masksOf imgid = itemFormRows imgid 0 dev.history) :
    Forall₂
      (fun h h' => Restored dev (readDevelop inst db w₀ imgid).dev
        (h.forms.filter fun form => (pointStructSize form.type).isSome) h h')
      dev.history (readDevelop inst db w₀ imgid).dev.history := by
  have hloadable := @loadableRows_written inst dev w imgid db w₀.dev hitems hkeys hrows
  have hloaded := @readDevelop_loaded inst w₀ hw hempty db imgid
  rw [hloadable, forall₂_iff_getElem?] at hloaded
  have hlength : (itemRows inst dev imgid 0 dev.history).length = dev.history.length := by
    generalize 0 = num
    induction dev.history generalizing num with
    | nil => rfl
    | cons h history ih => exact congrArg (· + 1) (ih (num + 1))
  refine forall₂_iff_getElem?.mpr ⟨(hloaded.1.trans hlength).symm, fun k h h' hh hh' => ?_⟩
  have hrow : (itemRows inst dev imgid 0 dev.history)[k]? =
      some (writeItemColumns inst dev h (blankRow imgid (0 + k : Nat))) := by
    rw [itemRows_getElem?, hh]
    rfl
  have hinst := hitems h (mem_of_getElem? hh)
  have hrestored := (hloaded.2 k h' _ hh' hrow).restored hinst hblend
  have hforms : h'.forms = h.forms.filter fun form => (pointStructSize form.type).isSome := by
    rw [readDevelop_forms hw hempty ?_ hh', masksByNum, hmasks,
      orderByNum_of_sorted (itemFormRows_sorted ..)]
    · have hfilter := @itemFormRows_filter imgid 0 k dev.history h hh
      rw [Nat.zero_add] at hfilter
      rw [hfilter, formRows_map_formOfRow hinst.forms]
    · intro k row hk
      rw [hloadable, itemRows_getElem?] at hk
      obtain ⟨g, _, rfl⟩ := map_eq_some_iff.mp hk
      show ((0 + k : Nat) : Int) = k
      rw [Nat.zero_add]
  exact { hrestored with forms := hforms }

end RoundTrip

/-- Writing a history and reading it back restores it exactly if every form attached to an item has
functions. -/
theorem writeRead_restores_iff (inst : Installation) (presets : AutoPresets) (dev : Develop)
    (db : Database) (w : Workspace) (imgid : ImgId) (himgid : imgid ≠ 0)
    (himage : (db.images imgid).isSome) (hw : w.Fresh) (hempty : w.dev.history = [])
    (hiop : w.dev.iop ≠ []) (hblend : 0 < inst.blendParamsSize)
    (hitems : ∀ h ∈ dev.history, InstalledItem inst dev w h) :
    let written := dtDevWriteHistoryExt inst dev db imgid
    let read := (dtDevReadHistoryExt inst presets written w imgid true).2.dev
    (Forall₂ (fun h h' => Restored dev read h.forms h h') dev.history read.history ∧
        read.historyEnd = dev.historyEnd) ↔
      ∀ h ∈ dev.history, ∀ form ∈ h.forms, (pointStructSize form.type).isSome := by
  intro written read
  obtain ⟨hrows, hmasks, hend⟩ := @dtDevWriteHistoryExt_spec inst dev imgid db
  set w₀ : Workspace := { w with dev := dtIopprSetDefaultIopOrder written w.dev imgid } with hw₀
  have hread : read = (readDevelop inst written w₀ imgid).dev := by
    show (dtDevReadHistoryExt inst presets written w imgid true).2.dev = _
    rw [dtDevReadHistoryExt, if_neg (not_or.mpr ⟨himgid, hiop⟩)]
    rfl
  have hfresh : w₀.Fresh := fun m hm =>
    hw m ((dtIopprSetDefaultIopOrder_perm written w.dev imgid).mem_iff.mp hm)
  have hcore := readDevelop_written hfresh hempty hblend hitems
    (fun _ => (keys_setDefaultIopOrder_perm written w.dev imgid).mem_iff.mpr) hrows hmasks
  rw [← hread] at hcore
  have hreadEnd : read.historyEnd = dev.historyEnd := by
    obtain ⟨image, hsome⟩ := isSome_iff_exists.mp himage
    rw [hread]
    show historyEndOr written imgid _ = dev.historyEnd
    rw [historyEndOr, show written.historyEnd imgid = _ from hend, hsome]
    exact Int.toNat_natCast _
  constructor
  · rintro ⟨hall, -⟩ h hh form hform
    obtain ⟨k, hk⟩ := mem_iff_getElem?.mp hh
    obtain ⟨hlength, hcore⟩ := forall₂_iff_getElem?.mp hcore
    have hget := List.getElem?_eq_getElem
      (hlength ▸ (List.getElem?_eq_some_iff.mp hk).1 : k < read.history.length)
    have hself := ((forall₂_iff_getElem?.mp hall).2 k h _ hk hget).forms
    rw [(hcore k h _ hk hget).forms] at hself
    exact filter_eq_self.mp hself form hform
  · intro hall
    refine ⟨?_, hreadEnd⟩
    obtain ⟨hlength, hcore⟩ := forall₂_iff_getElem?.mp hcore
    refine forall₂_iff_getElem?.mpr ⟨hlength, fun k h h' hh hh' => ?_⟩
    have hrestored := hcore k h h' hh hh'
    rwa [filter_eq_self.mpr (hall h (mem_of_getElem? hh))] at hrestored

def sampleForm (type : Nat) : MasksForm where
  formid := 1
  type := type
  name := "form"
  version := 6
  source := [0, 0, 0, 0, 0, 0, 0, 0]
  points := []

-- A develop whose only item has one form, of the given type.
def sampleMasked (type : Nat) : Develop :=
  { sampleWorkspace.dev with
    history := [{ sampleItem 2 with forms := [sampleForm type] }]
    historyEnd := 1 }

theorem installedItem_sampleMasked {type : Nat} (htype : type < 4294967296) :
    ∀ h ∈ (sampleMasked type).history,
      InstalledItem sampleInstallation (sampleMasked type) sampleWorkspace h := by
  intro h hh
  obtain rfl := mem_singleton.mp hh
  exact
    { base := show ("exposure", (0 : Int)) ∈ sampleWorkspace.dev.keys by decide
      loads := rfl
      multiPriority := le_refl _
      inHistory := show (sampleInstallation.iopSo "exposure").noHistoryStack = false by decide
      params := rfl
      blendParams := rfl
      forms := by
        intro form hform
        obtain rfl := mem_singleton.mp hform
        exact ⟨htype, rfl, fun _ _ _ h => absurd h not_mem_nil⟩ }

theorem writeRead_restores_circle :
    let written := dtDevWriteHistoryExt sampleInstallation (sampleMasked 1) (sampleDb 0 []) 1
    let read := (dtDevReadHistoryExt sampleInstallation ⟨[], none⟩ written sampleWorkspace 1 true).2
    Forall₂ (fun h h' => Restored (sampleMasked 1) read.dev h.forms h h')
        (sampleMasked 1).history read.dev.history ∧
      read.dev.historyEnd = (sampleMasked 1).historyEnd :=
  (writeRead_restores_iff sampleInstallation ⟨[], none⟩ (sampleMasked 1) (sampleDb 0 [])
    sampleWorkspace 1 (by decide) rfl (by decide) rfl (by decide) (by decide)
    (installedItem_sampleMasked (by decide))).mpr (by decide)

/-- A form of a type that has no functions: its row is prepared and never written. -/
theorem writeRead_loses_form :
    let written := dtDevWriteHistoryExt sampleInstallation (sampleMasked 256) (sampleDb 0 []) 1
    let read := (dtDevReadHistoryExt sampleInstallation ⟨[], none⟩ written sampleWorkspace 1 true).2
    ¬ (Forall₂ (fun h h' => Restored (sampleMasked 256) read.dev h.forms h h')
        (sampleMasked 256).history read.dev.history ∧
      read.dev.historyEnd = (sampleMasked 256).historyEnd) := by
  intro written read h
  have hforms : read.dev.history.map HistoryItem.forms = [[]] := by decide
  cases hread : read.dev.history with
  | nil =>
    rw [hread] at hforms
    cases hforms
  | cons h' history =>
    have hrestored := (forall₂_cons.mp h.1).1.forms
    cases hrestored

end DTLite
