import DTLite.Common.HistoryMerge

/-!
# What a merge leaves

Which module takes the settings of a source module, and what the module and its item are then.
-/

namespace DTLite

open Reasoning List IopModule

theorem keptHistory_of_active (dev : Develop) (h : dev.active = dev.history) :
    keptHistory dev = dev.history := by
  have hdrop : dev.history.drop dev.historyEnd = [] := by
    have hlength := congrArg length h
    rw [Develop.active, length_take] at hlength
    exact drop_eq_nil_of_le (by omega)
  rw [keptHistory, keptModules, hdrop, h]
  exact append_nil _

-- A module that is off is turned on if its item on top is off as well.
def StaysOff (dev : Develop) (m : ModuleRef) (enabled : Bool) : Prop :=
  ∀ h, dev.history.getLast? = some h → h.module = m → h.enabled = true ∨ enabled = true

/-- The module `m` got the item `item`, on top of the history or in place of its own top item. -/
structure TakesItem (dev : Develop) (m : ModuleRef) (r : Develop)
    (pre : List (HistoryItem ModuleRef)) (item : HistoryItem ModuleRef) : Prop where
  history_eq : r.history = pre ++ [item]
  active : r.active = r.history
  module_eq : item.module = m
  params : item.params = (dev.mods m).params
  multiName : item.multiName = (dev.mods m).multiName
  enabled : dev.active = dev.history → StaysOff dev m (dev.mods m).enabled →
    item.enabled = (dev.mods m).enabled
  below : dev.active = dev.history →
    pre = dev.history ∨ ∃ h, dev.history = pre ++ [h] ∧ h.module = m

theorem lastFor_module_put {history pre : List (HistoryItem ModuleRef)} {m : ModuleRef}
    {item : HistoryItem ModuleRef}
    (hbelow : pre = history ∨ ∃ h, history = pre ++ [h] ∧ h.module = m) (hitem : item.module = m)
    (n : ModuleRef) :
    lastFor HistoryItem.module n (pre ++ [item]) =
      if m = n then some item else lastFor HistoryItem.module n history := by
  rw [lastFor_put HistoryItem.module (hitem ▸ hbelow), hitem]

section AddMergedItem

variable (dev : Develop) (m : ModuleRef) (includeMasks : Bool)

theorem devAddHistoryItemExt_enabled (hactive : dev.active = dev.history)
    (h : StaysOff dev m (dev.mods m).enabled) (noImage : Bool) :
    ((devAddHistoryItemExt dev m false noImage includeMasks).1.mods m).enabled =
      (dev.mods m).enabled := by
  rcases devAddHistoryItemExt_cases dev m false noImage includeMasks with
    heq | ⟨pre, top, hkept, hmodule, heq⟩
  · rw [heq]
    simp only [pushItem, Develop.setModule_mods_self]
    rfl
  · rw [keptHistory_of_active dev hactive] at hkept
    have hoff : ¬ (!top.enabled && !(dev.mods m).enabled) = true := by
      rcases h top (getLast?_eq_some_iff.mpr ⟨pre, hkept⟩) hmodule with hon | hon <;>
        simp [hon]
    rw [heq]
    simp only [changeTopItem, Develop.setModule_mods_self]
    exact congrArg enabled (if_neg hoff)

theorem addMergedItem_active : (addMergedItem dev m includeMasks).active =
    (devAddHistoryItemExt dev m false true includeMasks).1.active := by
  unfold addMergedItem Develop.active
  rw [pop_history, pop_historyEnd]
  rfl

theorem addMergedItem_takesItem :
    ∃ pre item, TakesItem dev m (addMergedItem dev m includeMasks) pre item := by
  obtain ⟨pre, item, hadd, hname⟩ := devAddHistoryItemExt_named dev m false true includeMasks
  have hhistory : (addMergedItem dev m includeMasks).history = pre ++ [item] := by
    rw [addMergedItem, pop_history]
    exact hadd.history_eq
  refine ⟨pre, item, hhistory, ?_, hadd.module_eq, ?_, hname, fun hactive hoff => ?_,
    fun hactive => ?_⟩
  · rw [addMergedItem_active, hadd.active_eq, hhistory]
  · exact (congrArg Prod.fst hadd.live).symm.trans
      (devAddHistoryItemExt_obs params (fun _ _ => rfl) ..)
  · exact (congrArg Prod.snd hadd.live).symm.trans
      (devAddHistoryItemExt_enabled dev m _ hactive hoff _)
  · rw [← keptHistory_of_active dev hactive]
    exact hadd.below.imp And.left fun ⟨top, hkept, hmodule, _⟩ => ⟨top, hkept, hmodule⟩

theorem addMergedItem_multiName {n : ModuleRef} (hn : n ∈ dev.iop) :
    ((addMergedItem dev m includeMasks).mods n).multiName =
      ((lastFor HistoryItem.module n (addMergedItem dev m includeMasks).active).map
        HistoryItem.multiName).getD (dev.mods n).multiName := by
  set added := (devAddHistoryItemExt dev m false true includeMasks).1 with hadded
  have hname : ((dtIopprResyncModulesOrder added).mods n).multiName = (dev.mods n).multiName :=
    ((dtIopprResyncModulesOrder_same added n).obs multiName fun _ _ => rfl).trans
      (devAddHistoryItemExt_obs multiName (fun _ _ => rfl) ..)
  have hmem : n ∈ (dtIopprResyncModulesOrder added).iop := by
    obtain ⟨pre, item, hadd⟩ := devAddHistoryItemExt_addsItem dev m false true includeMasks
    rw [(dtIopprResyncModulesOrder_perm added).mem_iff, hadd.iop_eq]
    exact hn
  rw [addMergedItem_active, ← hname]
  exact pop_multiName _ _ hmem

end AddMergedItem

/-! ## The module that takes the settings -/

-- The module a source module is put into has its operation and settings.
structure Placed (w : Workspace) (modSrc : IopModule) (placed : Workspace) (m : ModuleRef) :
    Prop where
  mem : m ∈ placed.dev.iop
  subset : ∀ n ∈ w.dev.iop, n ∈ placed.dev.iop
  op_eq : ∀ n ∈ w.dev.iop, (placed.dev.mods n).op = (w.dev.mods n).op
  op_self : (placed.dev.mods m).op = modSrc.op
  params : (placed.dev.mods m).params = modSrc.params
  multiName : (placed.dev.mods m).multiName = modSrc.multiName
  history : placed.dev.history = w.dev.history
  historyEnd : placed.dev.historyEnd = w.dev.historyEnd

/-- `Placed`, with what the modules are else. -/
structure PlacedAt (w : Workspace) (modSrc : IopModule) (placed : Workspace) (m : ModuleRef) :
    Prop extends Placed w modSrc placed m where
  fresh : placed.Fresh
  only : ∀ n ∈ placed.dev.iop, n ∈ w.dev.iop ∨ n = m
  frame : ∀ n, n ≠ m → placed.dev.mods n = w.dev.mods n
  key : ∀ n ∈ w.dev.iop, moduleKey (placed.dev.mods n) = moduleKey (w.dev.mods n)
  created : m ∉ w.dev.iop → moduleKey (placed.dev.mods m) = moduleKey modSrc
  enabled : (placed.dev.mods m).enabled = modSrc.enabled

/-- The source module has gone into `m`, which has got the item `item` for it. -/
structure MergedAt (w : Workspace) (modSrc : IopModule) (r : Workspace) (m : ModuleRef)
    (pre : List (HistoryItem ModuleRef)) (item : HistoryItem ModuleRef) : Prop where
  fresh : r.Fresh
  active : r.dev.active = r.dev.history
  sync : InSync r.dev
  mem : m ∈ r.dev.iop
  subset : ∀ n ∈ w.dev.iop, n ∈ r.dev.iop
  only : ∀ n ∈ r.dev.iop, n ∈ w.dev.iop ∨ n = m
  key : ∀ n ∈ w.dev.iop, moduleKey (r.dev.mods n) = moduleKey (w.dev.mods n)
  op_self : (r.dev.mods m).op = modSrc.op
  created : m ∉ w.dev.iop → moduleKey (r.dev.mods m) = moduleKey modSrc
  multiName : ∀ n ∈ r.dev.iop, (r.dev.mods n).multiName =
    ((lastFor HistoryItem.module n r.dev.active).map HistoryItem.multiName).getD
      (w.dev.mods n).multiName
  history_eq : r.dev.history = pre ++ [item]
  module_eq : item.module = m
  params : item.params = modSrc.params
  itemName : item.multiName = modSrc.multiName
  enabled : w.dev.active = w.dev.history → StaysOff w.dev m modSrc.enabled →
    item.enabled = modSrc.enabled
  below : w.dev.active = w.dev.history →
    pre = w.dev.history ∨ ∃ h, w.dev.history = pre ++ [h] ∧ h.module = m

section Merge

variable {inst : Installation} {w : Workspace} {modSrc : IopModule}

theorem placeModule_placedAt (hw : w.Fresh) {destination : Destination}
    {placed : Workspace × ModuleRef}
    (hplaced : placeModule inst w modSrc destination = some placed)
    (hfound : destination ≠ .create →
      placed.2 ∈ w.dev.iop ∧ (w.dev.mods placed.2).op = modSrc.op) :
    PlacedAt w modSrc placed.1 placed.2 := by
  have hcases : ∃ module iop, TakesSettings w modSrc module iop placed ∧ placed.2 ∈ iop ∧
      (∀ n, n ∈ iop ↔ n ∈ w.dev.iop ∨ n = placed.2) ∧ module.op = modSrc.op ∧
      (placed.2 ∈ w.dev.iop → moduleKey module = moduleKey (w.dev.mods placed.2)) ∧
      (placed.2 ∉ w.dev.iop → moduleKey module = moduleKey modSrc) := by
    rcases placeModule_cases hplaced with ⟨hne, -, htakes⟩ | ⟨-, -, hend, module, hkey, htakes⟩
    · obtain ⟨hmem, hop⟩ := hfound hne
      refine ⟨_, _, htakes, hmem, fun n => ?_, hop, fun _ => rfl, absurd hmem⟩
      exact (or_iff_left_of_imp fun hn => hn ▸ hmem).symm
    · refine ⟨module, _, htakes, hend ▸ mem_cons_self, fun n => ?_, congrArg Prod.fst hkey,
        fun hmem => absurd (hw _ (hend ▸ hmem)) (lt_irrefl _), fun _ => hkey⟩
      rw [mem_cons, or_comm, hend]
  obtain ⟨module, iop, htakes, hmem, hiop, hop, hkey, hcreated⟩ := hcases
  have hiff : ∀ n, n ∈ placed.1.dev.iop ↔ n ∈ w.dev.iop ∨ n = placed.2 := fun n =>
    htakes.iop_perm.mem_iff.trans (hiop n)
  have hkeys : ∀ n ∈ w.dev.iop, moduleKey (placed.1.dev.mods n) = moduleKey (w.dev.mods n) := by
    intro n hn
    by_cases hne : n = placed.2
    · rw [hne, htakes.self]
      exact hkey (hne ▸ hn)
    · rw [htakes.frame n hne]
  exact
    { mem := htakes.iop_perm.mem_iff.mpr hmem
      subset := fun n hn => (hiff n).mpr (.inl hn)
      op_eq := fun n hn => congrArg Prod.fst (hkeys n hn)
      op_self := (congrArg op htakes.self).trans hop
      params := (congrArg params htakes.self).trans rfl
      multiName := (congrArg multiName htakes.self).trans rfl
      history := htakes.history
      historyEnd := htakes.historyEnd
      fresh := placeModule_fresh hw hplaced
      only := fun n => (hiff n).mp
      frame := htakes.frame
      key := hkeys
      created := fun hnot => (congrArg moduleKey htakes.self).trans (hcreated hnot)
      enabled := (congrArg enabled htakes.self).trans rfl }

theorem PlacedAt.mergedAt {placed : Workspace} {m : ModuleRef} (h : PlacedAt w modSrc placed m)
    (forms : Option (List MasksForm)) :
    ∃ pre item, MergedAt w modSrc
      { placed with dev := mergePlaced forms modSrc placed.dev m } m pre item := by
  rw [mergePlaced]
  set dev : Develop :=
    { placed.dev with
      forms := (formsUsed forms modSrc).foldl (copyForm (forms.getD [])) placed.dev.forms }
  generalize decide (formsUsed forms modSrc ≠ []) = includeMasks
  obtain ⟨pre, item, htakes⟩ := addMergedItem_takesItem dev m includeMasks
  have hiop := addMergedItem_iop_perm dev m includeMasks
  have hkey := addMergedItem_key dev m includeMasks
  have hactive : w.dev.active = w.dev.history → dev.active = dev.history := by
    intro hactive
    show placed.dev.history.take placed.dev.historyEnd = placed.dev.history
    rw [h.history, h.historyEnd]
    exact hactive
  have hself : lastFor HistoryItem.module m (addMergedItem dev m includeMasks).active =
      some item := by
    rw [htakes.active, htakes.history_eq, lastFor_concat_self _ _ htakes.module_eq]
  refine ⟨pre, item,
    { fresh := fun n hn => h.fresh n (hiop.mem_iff.mp hn)
      active := htakes.active
      sync := inSync_pop _ _
      mem := hiop.mem_iff.mpr h.mem
      subset := fun n hn => hiop.mem_iff.mpr (h.subset n hn)
      only := fun n hn => h.only n (hiop.mem_iff.mp hn)
      key := fun n hn => (hkey n).trans (h.key n hn)
      op_self := (congrArg Prod.fst (hkey m)).trans h.op_self
      created := fun hnot => (hkey m).trans (h.created hnot)
      multiName := fun n hn => ?_
      history_eq := htakes.history_eq
      module_eq := htakes.module_eq
      params := htakes.params.trans h.params
      itemName := htakes.multiName.trans h.multiName
      enabled := fun hw hoff => ?_
      below := fun hw => h.history ▸ htakes.below (hactive hw) }⟩
  · rw [addMergedItem_multiName dev m includeMasks (hiop.mem_iff.mp hn)]
    by_cases hne : n = m
    · rw [hne, hself]
      rfl
    · rw [show dev.mods n = w.dev.mods n from h.frame n hne]
  · refine (htakes.enabled (hactive hw) ?_).trans h.enabled
    rw [StaysOff, show (dev.mods m).enabled = modSrc.enabled from h.enabled,
      show dev.history = w.dev.history from h.history]
    exact hoff

variable {dev : Develop} {modulesUsed : List ModuleRef} {m : ModuleRef}

theorem moduleByName_spec (h : moduleByName dev modSrc modulesUsed = some m) :
    m ∈ dev.iop ∧ (dev.mods m).op = modSrc.op ∧ (dev.mods m).multiName = modSrc.multiName := by
  have hfound := find?_some h
  simp only [Bool.and_eq_true, beq_iff_eq] at hfound
  exact ⟨mem_of_find?_eq_some h, hfound.1.1, hfound.1.2⟩

theorem dtIopGetModuleByOpPriority_spec {operation : String}
    (h : dtIopGetModuleByOpPriority dev operation (-1) = some m) :
    m ∈ dev.iop ∧ (dev.mods m).op = operation := by
  have hfound := find?_some h
  simp only [Bool.and_eq_true, beq_iff_eq] at hfound
  exact ⟨mem_of_find?_eq_some h, hfound.1⟩

theorem dtIopGetModuleByOpPriority_isSome {operation : String}
    (h : ∃ m ∈ dev.iop, (dev.mods m).op = operation) :
    ∃ m, dtIopGetModuleByOpPriority dev operation (-1) = some m := by
  obtain ⟨m, hm, hop⟩ := h
  rw [← Option.isSome_iff_exists, dtIopGetModuleByOpPriority, find?_isSome]
  exact ⟨m, hm, by simp [hop]⟩

/-- A merge puts the source module into a module of the develop or into a new instance. -/
theorem merge_placedAt (hw : w.Fresh) (hbase : ∃ m ∈ w.dev.iop, (w.dev.mods m).op = modSrc.op)
    (hloads : (inst.iopSo modSrc.op).loadModule.isSome) (forms : Option (List MasksForm))
    (modulesUsed : List ModuleRef) :
    let r := dtHistoryMergeModuleIntoHistory inst w forms modSrc modulesUsed false
    ∃ placed m, r.module = some m ∧
      r.w = { placed with dev := mergePlaced forms modSrc placed.dev m } ∧
      PlacedAt w modSrc placed m ∧
      (m ∈ w.dev.iop ∧ (inst.iopSo modSrc.op).oneInstance = true ∨
        moduleByName w.dev modSrc modulesUsed = some m ∨
        moduleByName w.dev modSrc modulesUsed = none ∧
          (m ∈ w.dev.iop ∧ searchHistoryByOp w.dev modSrc = false ∨
            m ∉ w.dev.iop ∧ searchHistoryByOp w.dev modSrc = true)) := by
  intro r
  -- the call is decided by the destination and where it lies
  have hcall : ∀ destination placed, mergeDestination inst w.dev modSrc modulesUsed false =
      destination → placeModule inst w modSrc destination = some placed →
      (destination ≠ .create → placed.2 ∈ w.dev.iop ∧ (w.dev.mods placed.2).op = modSrc.op) →
      r.module = some placed.2 ∧
        r.w = { placed.1 with dev := mergePlaced forms modSrc placed.1.dev placed.2 } ∧
        PlacedAt w modSrc placed.1 placed.2 := by
    intro destination placed hdest hplace hfound
    have hr : r = ⟨{ placed.1 with dev := mergePlaced forms modSrc placed.1.dev placed.2 },
        destination.addUsed modulesUsed, some placed.2⟩ := by
      show dtHistoryMergeModuleIntoHistory inst w forms modSrc modulesUsed false = _
      rw [dtHistoryMergeModuleIntoHistory, hdest, hplace]
    rw [hr]
    exact ⟨rfl, rfl, placeModule_placedAt hw hplace hfound⟩
  obtain ⟨m, hm⟩ := dtIopGetModuleByOpPriority_isSome hbase
  have hspec := dtIopGetModuleByOpPriority_spec hm
  have hbaseModule : baseModule w.dev modSrc = .base m := by rw [baseModule, hm]
  by_cases hone : (inst.iopSo modSrc.op).oneInstance = true
  · have hdest : mergeDestination inst w.dev modSrc modulesUsed false = .base m := by
      rw [mergeDestination, if_pos hone, hbaseModule]
    obtain ⟨hmodule, hresult, hplaced⟩ := hcall _ _ hdest rfl fun _ => hspec
    exact ⟨_, m, hmodule, hresult, hplaced, .inl ⟨hspec.1, hone⟩⟩
  cases hname : moduleByName w.dev modSrc modulesUsed with
  | some n =>
    have hdest : mergeDestination inst w.dev modSrc modulesUsed false = .named n := by
      rw [mergeDestination, if_neg hone, if_neg Bool.false_ne_true, hname]
    obtain ⟨hmem, hop, -⟩ := moduleByName_spec hname
    obtain ⟨hmodule, hresult, hplaced⟩ := hcall _ _ hdest rfl fun _ => ⟨hmem, hop⟩
    exact ⟨_, n, hmodule, hresult, hplaced, .inr (.inl rfl)⟩
  | none =>
    have hdest : mergeDestination inst w.dev modSrc modulesUsed false =
        if searchHistoryByOp w.dev modSrc then .create else .base m := by
      rw [mergeDestination, if_neg hone, if_neg Bool.false_ne_true, hname, hbaseModule]
    by_cases hhistory : searchHistoryByOp w.dev modSrc = true
    · obtain ⟨loaded, hloaded⟩ := Option.isSome_iff_exists.mp hloads
      obtain ⟨module, hnew⟩ : ∃ module, newInstance inst w.dev modSrc = some module := by
        rw [newInstance, hm, hloaded]
        exact ⟨_, rfl⟩
      have hplace : placeModule inst w modSrc .create = some _ :=
        Option.map_eq_some_iff.mpr ⟨module, hnew, rfl⟩
      obtain ⟨hmodule, hresult, hplaced⟩ := hcall _ _ (hdest.trans (if_pos hhistory)) hplace
        (absurd rfl)
      exact ⟨_, _, hmodule, hresult, hplaced,
        .inr (.inr ⟨rfl, .inr ⟨fun hend => absurd (hw _ hend) (lt_irrefl _), hhistory⟩⟩)⟩
    · obtain ⟨hmodule, hresult, hplaced⟩ := hcall _ _ (hdest.trans (if_neg hhistory)) rfl
        fun _ => hspec
      exact ⟨_, m, hmodule, hresult, hplaced,
        .inr (.inr ⟨rfl, .inl ⟨hspec.1, Bool.eq_false_iff.mpr hhistory⟩⟩)⟩

end Merge

end DTLite
