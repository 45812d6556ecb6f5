import DTLite.Develop.ReadHistory

/-!
# The items that reading gives

Each loadable row gives one item, in the order of the rows.  The loop adds modules to `dev->iop`
as it goes; which rows are loadable does not depend on that.
-/

namespace DTLite

open Reasoning List Option Develop

def Develop.keys (dev : Develop) : List (String × Int) :=
  dev.iop.map fun m => moduleKey (dev.mods m)

def loopView (module : IopModule) : (String × Int) × Bool := (moduleKey module, alwaysOn module)

/-- The modules of `w` are still there in `w'`, and `w'` has none that a row could not also have
had from `w`. -/
structure Extends (inst : Installation) (w w' : Workspace) : Prop where
  heapEnd_le : w.heapEnd ≤ w'.heapEnd
  fresh : ∀ m ∈ w'.dev.iop, m < w'.heapEnd
  iop_subset : ∀ m ∈ w.dev.iop, m ∈ w'.dev.iop
  view : ∀ m, m < w.heapEnd → loopView (w'.dev.mods m) = loopView (w.dev.mods m)
  hasModule : ∀ key, hasModule inst w'.dev.keys key = hasModule inst w.dev.keys key

open Extends

def Workspace.Fresh (w : Workspace) : Prop := ∀ m ∈ w.dev.iop, m < w.heapEnd

instance decidableFresh (w : Workspace) : Decidable w.Fresh :=
  inferInstanceAs (Decidable (∀ m ∈ w.dev.iop, m < w.heapEnd))

variable {inst : Installation} {w w' w'' : Workspace}

theorem Extends.refl (hw : w.Fresh) : Extends inst w w :=
  ⟨le_refl _, hw, fun _ h => h, fun _ _ => rfl, fun _ => rfl⟩

theorem Extends.trans (h : Extends inst w w') (h' : Extends inst w' w'') : Extends inst w w'' where
  heapEnd_le := h.heapEnd_le.trans h'.heapEnd_le
  fresh := h'.fresh
  iop_subset m hm := h'.iop_subset m (h.iop_subset m hm)
  view m hm := (h'.view m (lt_of_lt_of_le hm h.heapEnd_le)).trans (h.view m hm)
  hasModule key := (h'.hasModule key).trans (h.hasModule key)

variable {module : IopModule} {m : ModuleRef}

theorem Extends.setModule (hw : w.Fresh) (hview : loopView module = loopView (w.dev.mods m)) :
    Extends inst w (w.setModule m module) := by
  have hmods : ∀ n, loopView ((w.setModule m module).dev.mods n) = loopView (w.dev.mods n) := by
    intro n
    by_cases hn : n = m
    · subst hn
      show loopView ((w.dev.setModule n module).mods n) = _
      rw [setModule_mods_self, hview]
    · show loopView ((w.dev.setModule m module).mods n) = _
      rw [setModule_mods_of_ne w.dev module hn]
  have hkeys : (w.setModule m module).dev.keys = w.dev.keys :=
    map_congr_left fun n _ => congrArg Prod.fst (hmods n)
  exact ⟨le_refl _, hw, fun _ h => h, fun n _ => hmods n, fun key => by rw [hkeys]⟩

theorem hasModule_append {keys : List (String × Int)} {new : String × Int}
    (hnew : hasModule inst keys new) (key : String × Int) :
    hasModule inst (keys ++ [new]) key = hasModule inst keys key := by
  have hop : keys.any (·.1 == new.1) := by
    simp only [hasModule, Bool.or_eq_true, Bool.and_eq_true] at hnew
    rcases hnew with hmem | hnew
    · exact any_eq_true.mpr ⟨new, contains_iff_mem.mp hmem, beq_self_eq_true _⟩
    · exact hnew.1.2
  have hany : (keys ++ [new]).any (·.1 == key.1) = keys.any (·.1 == key.1) := by
    rw [any_append]
    by_cases hk : new.1 = key.1
    · rw [← hk, hop, Bool.true_or]
    · simp [hk]
  by_cases hk : key = new
  · subst hk
    rw [hnew]
    simp [hasModule]
  · have hcontains : (keys ++ [new]).contains key = keys.contains key := by
      simp [hk]
    rw [hasModule, hasModule, hany, hcontains]

variable {item : HistoryItem ModuleRef} {opname : String} {row : HistoryRow}

theorem addInstance_extends (hw : w.Fresh) {findOp : ModuleRef}
    {multiName : String} {multiPriority iopOrder : Int}
    (hoffer : hasModule inst w.dev.keys (opname, multiPriority)) :
    Extends inst w (addInstance w module findOp opname multiPriority iopOrder multiName) := by
  set w' := addInstance w module findOp opname multiPriority iopOrder multiName with hw'
  have hold : ∀ m, m < w.heapEnd → w'.dev.mods m = w.dev.mods m := fun m hm =>
    setModule_mods_of_ne w.dev _ (ne_of_lt hm)
  have hnew : moduleKey (w'.dev.mods w.heapEnd) = (opname, multiPriority) := by
    show moduleKey ((w.dev.setModule w.heapEnd _).mods w.heapEnd) = _
    rw [setModule_mods_self]
    rfl
  have hiop : w'.dev.iop = w.dev.iop ++ [w.heapEnd] := rfl
  have hkeys : w'.dev.keys = w.dev.keys ++ [(opname, multiPriority)] := by
    rw [Develop.keys, hiop, map_append, map_singleton, hnew]
    congr 1
    exact map_congr_left fun m hm => by rw [hold m (hw m hm)]
  exact
    { heapEnd_le := Nat.le_succ _
      fresh := by
        intro m hm
        rw [hiop, mem_append, mem_singleton] at hm
        rcases hm with hm | rfl
        · exact Nat.lt_succ_of_lt (hw m hm)
        · exact Nat.lt_succ_self _
      iop_subset := fun m hm => hiop ▸ mem_append_left _ hm
      view := fun m hm => by rw [hold m hm]
      hasModule := fun key => by rw [hkeys, hasModule_append hoffer] }

variable {dev : Develop}

theorem isInstance_iff {multiPriority : Int} :
    isInstance dev opname multiPriority m ↔ moduleKey (dev.mods m) = (opname, multiPriority) := by
  simp [isInstance, moduleKey]

theorem hasModule_of_find?_none {opname : String} {multiPriority : Int}
    (hfind : dev.iop.find? (isInstance dev opname multiPriority) = none) :
    hasModule inst dev.keys (opname, multiPriority) =
      ((findOp dev opname multiPriority).isSome && (inst.iopSo opname).loadModule.isSome) := by
  have hnone : dev.keys.contains (opname, multiPriority) = false := by
    rw [Bool.eq_false_iff, ne_eq, contains_iff_mem]
    intro hmem
    obtain ⟨m, hm, hkey⟩ := mem_map.mp hmem
    exact find?_eq_none.mp hfind m hm (isInstance_iff.mpr hkey)
  have hop : (findOp dev opname multiPriority).isSome =
      (decide (0 < multiPriority) && dev.keys.any (·.1 == opname)) := by
    rw [findOp, Develop.keys]
    by_cases hpos : 0 < multiPriority
    · rw [Bool.eq_iff_iff]
      simp [hpos, moduleKey]
    · simp [hpos]
  rw [hasModule, hnone, Bool.false_or, hop]

/-- The module of a row is found or added exactly if it is on offer, and the workspace is
extended. -/
structure ModuleFound (inst : Installation) (w : Workspace) (key : String × Int)
    (found : Workspace × Option ModuleRef) : Prop where
  isSome : found.2.isSome = hasModule inst w.dev.keys key
  extend : Extends inst w found.1
  history : found.1.dev.history = w.dev.history
  historyEnd : found.1.dev.historyEnd = w.dev.historyEnd
  mem : ∀ m ∈ found.2, m ∈ found.1.dev.iop
  key : ∀ m ∈ found.2, moduleKey (found.1.dev.mods m) = key

theorem moduleOfRow_found (hw : w.Fresh) (opname multiName : String)
    (multiPriority iopOrder : Int) :
    ModuleFound inst w (opname, multiPriority)
      (moduleOfRow inst w opname multiPriority iopOrder multiName) := by
  unfold moduleOfRow
  split
  · next m hfind =>
    have hinst := isInstance_iff.mp (find?_some hfind)
    have hmem := mem_of_find?_eq_some hfind
    have hkey : w.dev.keys.contains (opname, multiPriority) := by
      rw [contains_iff_mem, ← hinst]
      exact mem_map_of_mem hmem
    exact
      { isSome := by
          rw [hasModule, hkey]
          rfl
        extend := setModule hw rfl
        history := rfl
        historyEnd := rfl
        mem := fun n hn => some.inj hn ▸ hmem
        key := by
          rintro n ⟨⟩
          show moduleKey ((w.dev.setModule m _).mods m) = _
          rw [setModule_mods_self]
          exact hinst }
  · next hfind =>
    have hoffer := @hasModule_of_find?_none inst _ _ _ hfind
    split
    · next hop hload =>
      have hyes : hasModule inst w.dev.keys (opname, multiPriority) := by
        rw [hoffer, hop, hload]
        rfl
      exact
        { isSome := hyes.symm
          extend := addInstance_extends hw hyes
          history := rfl
          historyEnd := rfl
          mem := by
            rintro n ⟨⟩
            exact mem_append_right _ (mem_singleton_self _)
          key := by
            rintro n ⟨⟩
            show moduleKey ((w.dev.setModule w.heapEnd _).mods w.heapEnd) = _
            rw [setModule_mods_self]
            rfl }
    · next hno =>
      have hempty : hasModule inst w.dev.keys (opname, multiPriority) = false := by
        rw [hoffer]
        cases hop : findOp w.dev opname multiPriority with
        | none => rfl
        | some m =>
          cases hload : (inst.iopSo opname).loadModule with
          | none => rfl
          | some module => exact absurd hload (hno m module hop)
      exact
        { isSome := hempty.symm
          extend := refl hw
          history := rfl
          historyEnd := rfl
          mem := fun n hn => by cases hn
          key := fun n hn => by cases hn }

/-- The item that a row gives. What a conversion makes of the params is left to the module. -/
structure LoadedFrom (inst : Installation) (dev : Develop) (item : HistoryItem ModuleRef)
    (row : HistoryRow) : Prop where
  operation : row.operation = some item.opName
  num : item.num = columnInt row.num
  multiPriority : item.multiPriority = columnInt row.multiPriority
  multiName : item.multiName = row.multiName.getD ""
  module_mem : item.module ∈ dev.iop
  module_key : moduleKey (dev.mods item.module) = (item.opName, item.multiPriority)
  params : isCurrent inst item.opName row → item.params = row.opParams.getD []
  enabled : isCurrent inst item.opName row →
    item.enabled = (alwaysOn (dev.mods item.module) || columnInt row.enabled != 0)
  blendParams : isCurrent inst item.opName row →
    columnInt row.blendopVersion = inst.blendVersion →
    columnBytes row.blendopParams = inst.blendParamsSize → 0 < inst.blendParamsSize →
    item.blendParams = row.blendopParams.getD []

theorem LoadedFrom.congr {dev dev' : Develop} (h : LoadedFrom inst dev item row)
    (hmem : item.module ∈ dev'.iop)
    (hview : loopView (dev'.mods item.module) = loopView (dev.mods item.module)) :
    LoadedFrom inst dev' item row :=
  { h with
    module_mem := hmem
    module_key := (congrArg Prod.fst hview).trans h.module_key
    enabled := by
      intro hcurrent
      rw [show alwaysOn (dev'.mods item.module) = alwaysOn (dev.mods item.module) from
        congrArg Prod.snd hview]
      exact h.enabled hcurrent }

theorem LoadedFrom.extend (hw : w.Fresh) (h : LoadedFrom inst w.dev item row)
    (hext : Extends inst w w') : LoadedFrom inst w'.dev item row :=
  h.congr (hext.iop_subset _ h.module_mem) (hext.view item.module (hw _ h.module_mem))

theorem paramsOfRow_of_isCurrent (h : isCurrent inst opname row) :
    paramsOfRow inst opname row = some (.current (row.opParams.getD [])) :=
  if_pos h

theorem blendOfRow_of_current (hversion : columnInt row.blendopVersion = inst.blendVersion)
    (hbytes : columnBytes row.blendopParams = inst.blendParamsSize)
    (hpos : 0 < inst.blendParamsSize) : blendOfRow inst module row = row.blendopParams.getD [] := by
  cases hblob : row.blendopParams with
  | none =>
    rw [hblob] at hbytes
    exact absurd hbytes (ne_of_lt hpos)
  | some blob =>
    rw [hblob] at hbytes
    have hlen : blob.length = inst.blendParamsSize := hbytes
    have hne : blob ≠ [] := ne_nil_of_length_pos (by omega)
    rw [blendOfRow, hblob, columnBlob, filter_some, if_pos (decide_eq_true hne)]
    exact if_pos ⟨hversion, hbytes⟩

/-- The workspace after some rows: extended, and with the items of the loadable ones. -/
structure RowsRead (inst : Installation) (w w' : Workspace) (rows : List HistoryRow) : Prop where
  extend : Extends inst w w'
  items : ∃ items, w'.dev.history = w.dev.history ++ items ∧
    w'.dev.historyEnd = w.dev.historyEnd + items.length ∧
    List.Forall₂ (LoadedFrom inst w'.dev) items (rows.filter (loadable inst w.dev)) ∧
    ∀ item ∈ items, item.forms = []

theorem RowsRead.of_none {rows : List HistoryRow} (hext : Extends inst w w')
    (hhistory : w'.dev.history = w.dev.history) (hend : w'.dev.historyEnd = w.dev.historyEnd)
    (hrows : ∀ row ∈ rows, ¬ loadable inst w.dev row) : RowsRead inst w w' rows := by
  refine ⟨hext, [], ?_, ?_, ?_, fun _ h => absurd h not_mem_nil⟩
  · rw [hhistory, append_nil]
  · rw [hend]
    rfl
  · rw [filter_eq_nil_iff.mpr hrows]
    exact .nil

theorem loadable_congr (hext : Extends inst w w') (row : HistoryRow) :
    loadable inst w'.dev row = loadable inst w.dev row := by
  have hkeys := hext.hasModule
  unfold loadable
  simp only [Develop.keys] at hkeys
  simp [hkeys]

theorem RowsRead.append {rows rows' : List HistoryRow} (h : RowsRead inst w w' rows)
    (h' : RowsRead inst w' w'' rows') : RowsRead inst w w'' (rows ++ rows') := by
  obtain ⟨items, hhistory, hend, hitems, hforms⟩ := h.items
  obtain ⟨items', hhistory', hend', hitems', hforms'⟩ := h'.items
  refine ⟨h.extend.trans h'.extend, items ++ items', ?_, ?_, ?_, ?_⟩
  · rw [hhistory', hhistory, append_assoc]
  · rw [hend', hend, length_append, Nat.add_assoc]
  · have hsame : rows'.filter (loadable inst w.dev) = rows'.filter (loadable inst w'.dev) :=
      filter_congr fun row _ => (loadable_congr h.extend row).symm
    rw [filter_append, hsame]
    refine rel_append (hitems.imp fun _ _ hi => ?_) hitems'
    exact hi.extend h.extend.fresh h'.extend
  · intro item hitem
    rcases mem_append.mp hitem with hitem | hitem
    · exact hforms item hitem
    · exact hforms' item hitem

section OneRow

variable {m : ModuleRef} {opname : String} {iopOrder : Int} {row : HistoryRow} {params : RowParams}

theorem itemOfRow_loadedFrom (hop : row.operation = some opname)
    (hparams : paramsOfRow inst opname row = some params) (hmem : m ∈ w.dev.iop)
    (hkey : moduleKey (w.dev.mods m) = (opname, columnInt row.multiPriority)) :
    LoadedFrom inst w.dev (itemOfRow inst w.dev m opname iopOrder row params) row := by
  have hcurrent : isCurrent inst opname row → params = .current (row.opParams.getD []) := by
    intro h
    rw [paramsOfRow_of_isCurrent h] at hparams
    exact (some.inj hparams).symm
  exact
    { operation := hop
      num := rfl
      multiPriority := rfl
      multiName := rfl
      module_mem := hmem
      module_key := hkey
      params := fun h => by rw [hcurrent h]; rfl
      enabled := fun h => by rw [hcurrent h]; rfl
      blendParams := fun h hversion hbytes hpos => by
        rw [hcurrent h]
        exact blendOfRow_of_current hversion hbytes hpos }

theorem appendItem_read (hw : w.Fresh) (hop : row.operation = some opname)
    (hparams : paramsOfRow inst opname row = some params) (hmem : m ∈ w.dev.iop)
    (hkey : moduleKey (w.dev.mods m) = (opname, columnInt row.multiPriority))
    (hrow : loadable inst w.dev row) :
    RowsRead inst w (appendItem inst w m opname iopOrder row params) [row] := by
  set module := convertModule opname row params (w.dev.mods m) with hmodule
  have hview : loopView module = loopView (w.dev.mods m) := by
    cases params with
    | current => rfl
    | converted => rfl
  have hset : Extends inst w (w.setModule m module) := setModule hw hview
  -- appending the item changes no module
  have hext : Extends inst w (appendItem inst w m opname iopOrder row params) :=
    ⟨hset.heapEnd_le, hset.fresh, hset.iop_subset, hset.view, hset.hasModule⟩
  refine ⟨hext, [itemOfRow inst w.dev m opname iopOrder row params], rfl, rfl, ?_, ?_⟩
  · rw [filter_cons_of_pos hrow]
    exact .cons ((itemOfRow_loadedFrom hop hparams hmem hkey).extend hw hext) .nil
  · intro item hitem
    rw [mem_singleton.mp hitem]
    rfl

theorem readFoundRow_read {historyEndCurrent : Int} (hw : w.Fresh)
    (hop : row.operation = some opname) (hmem : m ∈ w.dev.iop)
    (hkey : moduleKey (w.dev.mods m) = (opname, columnInt row.multiPriority)) :
    RowsRead inst w (readFoundRow inst historyEndCurrent w m opname iopOrder row) [row] := by
  have hoffer : hasModule inst w.dev.keys (opname, columnInt row.multiPriority) := by
    rw [hasModule, contains_iff_mem.mpr (hkey ▸ mem_map_of_mem hmem), Bool.true_or]
  have hloadable : loadable inst w.dev row =
      (!(inst.iopSo opname).noHistoryStack && (paramsOfRow inst opname row).isSome) := by
    rw [Develop.keys] at hoffer
    rw [loadable, hop, any_some, hoffer, Bool.true_and]
  unfold readFoundRow
  by_cases hstack : (inst.iopSo opname).noHistoryStack
  · rw [if_pos hstack]
    exact .of_none (refl hw) rfl rfl (by simp [hloadable, hstack])
  · rw [if_neg hstack]
    set w₁ := if w.dev.historyEnd < historyEndCurrent then
      w.setModule m { w.dev.mods m with iopOrder := iopOrder } else w with hw₁
    -- whether or not the order is written, the row is read from an extended workspace
    have hext : Extends inst w w₁ := by
      rw [hw₁]
      split
      · exact setModule hw rfl
      · exact refl hw
    have hhistory : w₁.dev.history = w.dev.history ∧ w₁.dev.historyEnd = w.dev.historyEnd := by
      rw [hw₁]
      split
      · exact ⟨rfl, rfl⟩
      · exact ⟨rfl, rfl⟩
    split
    · next hparams =>
      exact .of_none hext hhistory.1 hhistory.2 (by simp [hloadable, hparams])
    · next params hparams =>
      have hkey₁ : moduleKey (w₁.dev.mods m) = (opname, columnInt row.multiPriority) :=
        (congrArg Prod.fst (hext.view m (hw m hmem))).trans hkey
      have hrow : loadable inst w₁.dev row := by
        rw [loadable_congr hext, hloadable, hparams]
        simpa using hstack
      have hskip : RowsRead inst w w₁ [] :=
        .of_none hext hhistory.1 hhistory.2 fun _ h => absurd h not_mem_nil
      exact hskip.append
        (appendItem_read hext.fresh hop hparams (hext.iop_subset m hmem) hkey₁ hrow)

theorem readHistoryRow_read (hw : w.Fresh) (historyEndCurrent : Int) (row : HistoryRow) :
    RowsRead inst w (readHistoryRow inst historyEndCurrent w row) [row] := by
  unfold readHistoryRow
  split
  · next hop => exact .of_none (refl hw) rfl rfl (by simp [loadable, hop])
  · next opname hop =>
    dsimp only
    set multiPriority := columnInt row.multiPriority with hprio
    have hfound := @moduleOfRow_found inst w hw opname (row.multiName.getD "") multiPriority
      (dtIopprGetIopOrder w.dev.iopOrderList opname multiPriority)
    split
    · next hnone =>
      have hoffer := hfound.isSome
      rw [hnone] at hoffer
      rw [Develop.keys] at hoffer
      refine .of_none hfound.extend hfound.history hfound.historyEnd ?_
      intro r hr
      rw [mem_singleton.mp hr, loadable, hop, any_some, ← hoffer]
      simp
    · next m hsome =>
      have hskip : RowsRead inst w (moduleOfRow inst w opname multiPriority _ _).1 [] :=
        .of_none hfound.extend hfound.history hfound.historyEnd fun _ h => absurd h not_mem_nil
      exact hskip.append
        (readFoundRow_read hfound.extend.fresh hop (hfound.mem m hsome) (hfound.key m hsome))

end OneRow

theorem readRows_read (hw : w.Fresh) (historyEndCurrent : Int) (rows : List HistoryRow) :
    RowsRead inst w (rows.foldl (readHistoryRow inst historyEndCurrent) w) rows := by
  induction rows generalizing w with
  | nil => exact .of_none (refl hw) rfl rfl fun _ h => absurd h not_mem_nil
  | cons row rows ih =>
    have hrow := @readHistoryRow_read inst w hw historyEndCurrent row
    exact hrow.append (ih hrow.extend.fresh)

-- The rows of an image that give an item, in the order they are read.
def loadableRows (inst : Installation) (dev : Develop) (db : Database) (imgid : ImgId) :
    List HistoryRow :=
  (db.historyByNum imgid).filter (loadable inst dev)

-- The rows whose items come to stand below `history_end`.
def activeRows (inst : Installation) (dev : Develop) (db : Database) (imgid : ImgId) :
    List HistoryRow :=
  let rows := loadableRows inst dev db imgid
  rows.take (historyEndOr db imgid rows.length)

theorem loadedFrom_dropForms_iff
    {row : HistoryRow} : LoadedFrom inst dev item.dropForms row ↔ LoadedFrom inst dev item row := by
  constructor
  · intro h
    exact ⟨h.1, h.2, h.3, h.4, h.5, h.6, h.7, h.8, h.9⟩
  · intro h
    exact ⟨h.1, h.2, h.3, h.4, h.5, h.6, h.7, h.8, h.9⟩

variable (db : Database) (dev : Develop) (imgid : ImgId)

theorem resync_loopView (m : ModuleRef) :
    loopView ((dtIopprResyncModulesOrder dev).mods m) = loopView (dev.mods m) :=
  (dtIopprResyncModulesOrder_same dev m).obs loopView fun _ _ => rfl

/-- The loop starts from `history_end` 0 and an empty history: one item for each loadable row,
without forms yet. -/
structure ItemsRead (inst : Installation) (dev : Develop) (rows : List HistoryRow) : Prop where
  loaded : List.Forall₂ (LoadedFrom inst dev) dev.history rows
  historyEnd : dev.historyEnd = rows.length
  forms : ∀ item ∈ dev.history, item.forms = []

theorem readHistoryRows_read (hw : w.Fresh) (hempty : w.dev.history = []) (db : Database)
    (imgid : ImgId) :
    ItemsRead inst (readHistoryRows inst db w imgid).dev (loadableRows inst w.dev db imgid) := by
  have hread := @readRows_read inst { w with dev := { w.dev with historyEnd := 0 } } hw
    (columnInt (db.historyEnd imgid)) (db.historyByNum imgid)
  obtain ⟨items, hhistory, hend, hitems, hforms⟩ := hread.items
  have hitems₀ : (readHistoryRows inst db w imgid).dev.history = items := by
    rw [show (readHistoryRows inst db w imgid).dev.history = w.dev.history ++ items from hhistory,
      hempty, nil_append]
  refine ⟨?_, ?_, ?_⟩
  · rw [hitems₀]
    exact hitems
  · rw [show (readHistoryRows inst db w imgid).dev.historyEnd = 0 + items.length from hend,
      Nat.zero_add]
    exact hitems.length_eq
  · rw [hitems₀]
    exact hforms

/-- Reading gives one item for each loadable row. -/
theorem readDevelop_loaded (hw : w.Fresh) (hempty : w.dev.history = []) (db : Database)
    (imgid : ImgId) :
    Forall₂ (LoadedFrom inst (readDevelop inst db w imgid).dev)
      (readDevelop inst db w imgid).dev.history (loadableRows inst w.dev db imgid) := by
  set w₁ := readHistoryRows inst db w imgid with hw₁
  have hforms : (readDevelop inst db w imgid).dev.history.map HistoryItem.dropForms =
      w₁.dev.history.map HistoryItem.dropForms :=
    dtMasksReadMasksHistory_dropForms ..
  have hloaded : Forall₂ (LoadedFrom inst (readDevelop inst db w imgid).dev)
      w₁.dev.history (loadableRows inst w.dev db imgid) := by
    -- the order of the modules does not matter
    refine (readHistoryRows_read hw hempty db imgid).loaded.imp fun item row h => h.congr ?_ ?_
    · exact (dtIopprResyncModulesOrder_perm w₁.dev).mem_iff.mpr h.module_mem
    · exact resync_loopView w₁.dev item.module
  -- nor do the forms
  have hdrop : Forall₂ (LoadedFrom inst (readDevelop inst db w imgid).dev)
      (w₁.dev.history.map HistoryItem.dropForms) (loadableRows inst w.dev db imgid) :=
    forall₂_map_left_iff.mpr (hloaded.imp fun _ _ => loadedFrom_dropForms_iff.mpr)
  rw [← hforms] at hdrop
  exact (forall₂_map_left_iff.mp hdrop).imp fun _ _ => loadedFrom_dropForms_iff.mp

/-- The items below `history_end` come from the rows `activeRows`. -/
theorem readDevelop_active (hw : w.Fresh) (hempty : w.dev.history = []) (db : Database)
    (imgid : ImgId) :
    Forall₂ (LoadedFrom inst (readDevelop inst db w imgid).dev)
      (readDevelop inst db w imgid).dev.active (activeRows inst w.dev db imgid) := by
  have hend : (readDevelop inst db w imgid).dev.historyEnd =
      historyEndOr db imgid (loadableRows inst w.dev db imgid).length := by
    rw [← (readHistoryRows_read hw hempty db imgid).historyEnd]
    rfl
  rw [active, hend]
  exact forall₂_take _ (readDevelop_loaded hw hempty db imgid)

/-! ## `history_end` counts rows -/

-- The loadable rows whose number is below the stored `history_end`.
def rowsBelowEnd (inst : Installation) (dev : Develop) (db : Database) (imgid : ImgId) :
    List HistoryRow :=
  (loadableRows inst dev db imgid).filter fun row =>
    (db.historyEnd imgid).any (columnInt row.num < ·)

/-- As many loadable rows stand below `history_end` as it counts, or all rows do; without a
`history_end` no row is loadable. -/
def EndCountsRows (inst : Installation) (dev : Develop) (db : Database) (imgid : ImgId) : Prop :=
  let rows := loadableRows inst dev db imgid
  (rows.countP fun row => (db.historyEnd imgid).any (columnInt row.num < ·)) =
    min (historyEndOr db imgid rows.length) rows.length

instance decidableEndCountsRows (inst : Installation) (dev : Develop) (db : Database)
    (imgid : ImgId) : Decidable (EndCountsRows inst dev db imgid) :=
  inferInstanceAs (Decidable (_ = _))

theorem length_rowsBelowEnd_eq_iff (inst : Installation) (dev : Develop) (db : Database)
    (imgid : ImgId) :
    (rowsBelowEnd inst dev db imgid).length = (activeRows inst dev db imgid).length ↔
      EndCountsRows inst dev db imgid := by
  rw [rowsBelowEnd, activeRows, length_take, ← countP_eq_length_filter]
  rfl

theorem columnInt_lt_of_numLe {a b : Option Int} {bound : Int} (hab : numLe a b)
    (hb : columnInt b < bound) (hpos : 0 < bound) : columnInt a < bound := by
  cases a with
  | none => exact hpos
  | some a =>
    cases b with
    | none => exact hab.elim
    | some b => exact lt_of_le_of_lt hab hb

theorem activeRows_eq_rowsBelowEnd {dev : Develop} {db : Database} {imgid : ImgId}
    (h : EndCountsRows inst dev db imgid) :
    activeRows inst dev db imgid = rowsBelowEnd inst dev db imgid := by
  have hsorted : (loadableRows inst dev db imgid).Pairwise fun a b => numLe a.num b.num :=
    (orderByNum_sorted HistoryRow.num (db.historyOf imgid)).filter _
  rw [activeRows, rowsBelowEnd]
  by_cases hpos : ∀ historyEnd ∈ db.historyEnd imgid, 0 < historyEnd
  · refine (take_eq_filter_iff_countP (hsorted.imp fun {a b} hab hb => ?_)).mpr h
    cases hend : db.historyEnd imgid with
    | none => simp [hend] at hb
    | some historyEnd =>
      rw [hend, any_some, decide_eq_true_eq] at hb
      rw [any_some, decide_eq_true_eq]
      exact columnInt_lt_of_numLe hab hb (hpos historyEnd hend)
  · -- nothing is taken, and the count says that nothing stands below
    push Not at hpos
    obtain ⟨historyEnd, hend, hle⟩ := hpos
    have hzero : historyEndOr db imgid (loadableRows inst dev db imgid).length = 0 := by
      rw [historyEndOr, show db.historyEnd imgid = some historyEnd from hend]
      exact Int.toNat_of_nonpos hle
    rw [EndCountsRows, hzero, Nat.zero_min, countP_eq_zero] at h
    rw [hzero, take_zero, filter_eq_nil_iff.mpr h]

theorem dtIopprSetDefaultIopOrder_perm :
    (dtIopprSetDefaultIopOrder db dev imgid).iop.Perm dev.iop :=
  dtIopprResyncModulesOrder_perm _

theorem hasModule_perm {keys keys' : List (String × Int)} (h : keys'.Perm keys)
    (key : String × Int) : hasModule inst keys' key = hasModule inst keys key := by
  rw [hasModule, hasModule, h.contains_eq, h.any_eq]

theorem keys_setDefaultIopOrder_perm :
    (dtIopprSetDefaultIopOrder db dev imgid).keys.Perm dev.keys := by
  have hkey : ∀ m, moduleKey ((dtIopprSetDefaultIopOrder db dev imgid).mods m) =
      moduleKey (dev.mods m) := fun m =>
    (dtIopprResyncModulesOrder_same _ m).obs moduleKey fun _ _ => rfl
  rw [Develop.keys, map_congr_left fun m _ => hkey m]
  exact (dtIopprSetDefaultIopOrder_perm db dev imgid).map _

theorem loadable_setDefaultIopOrder (row : HistoryRow) :
    loadable inst (dtIopprSetDefaultIopOrder db dev imgid) row = loadable inst dev row := by
  have hkeys := @hasModule_perm inst _ _ (keys_setDefaultIopOrder_perm db dev imgid)
  simp only [Develop.keys] at hkeys
  unfold loadable
  simp [hkeys]

theorem historyTable_workspace (inst : Installation) (presets : AutoPresets) (db : Database)
    (w : Workspace) (imgid : ImgId) (noImage : Bool) :
    let w' := (historyTable inst presets db w imgid noImage).2
    w'.heapEnd = w.heapEnd ∧ w'.dev.history = w.dev.history ∧ w'.dev.iop.Perm w.dev.iop := by
  have hone := dtIopprSetDefaultIopOrder_perm db w.dev imgid
  unfold historyTable prepareHistory
  split
  · exact ⟨rfl, rfl, hone⟩
  · split
    · exact ⟨rfl, rfl, hone⟩
    · cases presets.ioporder with
      | none => exact ⟨rfl, rfl, hone⟩
      | some iopList => exact ⟨rfl, rfl, (dtIopprSetDefaultIopOrder_perm ..).trans hone⟩

/-- After a read, the items below `history_end` are those of the loadable rows numbered below the
stored `history_end` exactly if it counts these rows. -/
theorem readHistory_active_iff (inst : Installation) (presets : AutoPresets) (db : Database)
    (w : Workspace) (imgid : ImgId) (noImage : Bool) (himgid : imgid ≠ 0)
    (hiop : w.dev.iop ≠ []) (hempty : w.dev.history = []) (hw : w.Fresh) :
    let table := historyTable inst presets db w imgid noImage
    let read := (dtDevReadHistoryExt inst presets db w imgid noImage).2
    Forall₂ (LoadedFrom inst read.dev) read.dev.active
        (rowsBelowEnd inst table.2.dev table.1 imgid) ↔
      EndCountsRows inst table.2.dev table.1 imgid := by
  intro table read
  have hread : read = readDevelop inst table.1 table.2 imgid := by
    show (dtDevReadHistoryExt inst presets db w imgid noImage).2 = _
    rw [dtDevReadHistoryExt, if_neg (not_or.mpr ⟨himgid, hiop⟩)]
  obtain ⟨hheap, hhistory, hperm⟩ := historyTable_workspace inst presets db w imgid noImage
  have hfresh : table.2.Fresh := by
    intro m hm
    rw [hheap]
    exact hw m (hperm.mem_iff.mp hm)
  have hactive := @readDevelop_active inst table.2 hfresh (hhistory.trans hempty) table.1 imgid
  rw [hread]
  constructor
  · intro hbelow
    rw [← length_rowsBelowEnd_eq_iff, ← hbelow.length_eq, hactive.length_eq]
  · intro hcount
    rw [← activeRows_eq_rowsBelowEnd hcount]
    exact hactive

theorem readHistory_active_twoRows :
    let db := sampleDb 2 [sampleRow 0 "demosaic", sampleRow 1 "exposure"]
    let read := (dtDevReadHistoryExt sampleInstallation ⟨[], none⟩ db sampleWorkspace 1 true).2
    let table := historyTable sampleInstallation ⟨[], none⟩ db sampleWorkspace 1 true
    Forall₂ (LoadedFrom sampleInstallation read.dev) read.dev.active
      (rowsBelowEnd sampleInstallation table.2.dev table.1 1) :=
  (readHistory_active_iff sampleInstallation ⟨[], none⟩
    (sampleDb 2 [sampleRow 0 "demosaic", sampleRow 1 "exposure"]) sampleWorkspace 1 true
    (by decide) (by decide) rfl (by decide)).mpr (by decide)

/-- The first of three rows is of an operation that is not installed. `history_end` is 2, so only
the second row is active; the third was undone, and its item stands below `history_end` too. -/
theorem readHistory_unknown_operation :
    let db := sampleDb 2 [sampleRow 0 "unknown", sampleRow 1 "demosaic", sampleRow 2 "exposure"]
    let read := (dtDevReadHistoryExt sampleInstallation ⟨[], none⟩ db sampleWorkspace 1 true).2
    let table := historyTable sampleInstallation ⟨[], none⟩ db sampleWorkspace 1 true
    ¬ Forall₂ (LoadedFrom sampleInstallation read.dev) read.dev.active
      (rowsBelowEnd sampleInstallation table.2.dev table.1 1) := by
  intro db read table h
  have hlength := h.length_eq
  exact absurd hlength (by decide)

end DTLite
