import DTLite.Libs.History

/-!
# Undo and redo of a change to the history

How often a snapshot is copied on its way into a record and back decides the order in which its
items come out.
-/

namespace DTLite

open Reasoning List

variable (panel : HistoryPanel) (dev : Develop)

theorem dtHistoryDuplicate_eq_reverse (hist : List SnapshotItem) :
    dtHistoryDuplicate dev hist = (hist.map (duplicateItem dev)).reverse := by
  have hacc : ∀ acc, hist.foldl (fun result h => duplicateItem dev h :: result) acc =
      (hist.map (duplicateItem dev)).reverse ++ acc := by
    induction hist with
    | nil => intro acc; rfl
    | cons h hist ih =>
      intro acc
      rw [foldl_cons, ih, map_cons, reverse_cons, append_assoc]
      rfl
  exact (hacc []).trans (append_nil _)

theorem dtHistoryDuplicate_snapshot (history : List (HistoryItem ModuleRef)) :
    dtHistoryDuplicate dev (history.map snapshotItem) = history.reverse.map snapshotItem := by
  have hitem : duplicateItem dev ∘ snapshotItem = snapshotItem := rfl
  rw [dtHistoryDuplicate_eq_reverse, map_map, hitem, map_reverse]

theorem dtIopprIopOrderCopyDeep_eq (iopOrderList : List IopOrderEntry) :
    dtIopprIopOrderCopyDeep iopOrderList = iopOrderList :=
  map_id iopOrderList

theorem snapshotItem_injective : Function.Injective snapshotItem := by
  intro h₁ h₂ heq
  cases h₁
  cases h₂
  simp only [snapshotItem, HistoryItem.mk.injEq, Option.some.injEq] at heq
  simp only [HistoryItem.mk.injEq]
  exact heq

theorem rebuildStep_history (s : UndoWork × Bool) (hitem : SnapshotItem) :
    (rebuildStep s hitem).1.history = s.1.history := by
  unfold rebuildStep
  split
  · rfl
  · split <;> rfl

variable (work : UndoWork)

theorem rebuildMultiPriority_history : (rebuildMultiPriority work).1.history = work.history := by
  have hfold : ∀ (items : List SnapshotItem) (s : UndoWork × Bool),
      (items.foldl rebuildStep s).1.history = s.1.history := by
    intro items
    induction items with
    | nil => intro s; rfl
    | cons hitem items ih =>
      intro s
      rw [foldl_cons, ih, rebuildStep_history]
  exact hfold work.history (work, false)

theorem createDeletedModules_of_isSome (hsome : ∀ h ∈ work.history, h.module.isSome = true) :
    createDeletedModules work = (work, false) := by
  unfold createDeletedModules
  generalize work.history.length = n
  generalize 0 = i
  induction n generalizing i with
  | zero => rfl
  | succ n ih =>
    unfold createDeletedModulesLoop
    cases hitem : work.history[i]? with
    | none => rfl
    | some h =>
      have hh : h.module.isSome = true := hsome h (mem_of_getElem? hitem)
      dsimp only
      rw [if_pos hh]
      exact ih (i + 1)

theorem checkDeletedLoop_history (n : Nat) (work : UndoWork) :
    (checkDeletedLoop n work).1.history = work.history := by
  induction n generalizing work with
  | zero => rfl
  | succ n ih =>
    unfold checkDeletedLoop
    split
    · rfl
    · exact ih _

theorem checkDeletedInstances_history : (checkDeletedInstances work).1.history = work.history := by
  unfold checkDeletedInstances
  dsimp only
  split
  · exact checkDeletedLoop_history ..
  · exact checkDeletedLoop_history ..

def UndoHistory.snapshot (hist : UndoHistory) : UndoAction → List SnapshotItem
  | .undo => hist.beforeSnapshot
  | .redo => hist.afterSnapshot

/-- With every module in place, the history that is put back is one more copy of the snapshot. -/
theorem popUndo_history (heapEnd : ModuleRef) (others : List UndoHistory) (hist : UndoHistory)
    (action : UndoAction) {history : List (HistoryItem ModuleRef)}
    (hsnap : hist.snapshot action = history.map snapshotItem) :
    (popUndo dev heapEnd others hist action).history = history.reverse.map snapshotItem := by
  have hcopy := dtHistoryDuplicate_snapshot dev history
  rw [← hsnap] at hcopy
  have hsome : ∀ h ∈ dtHistoryDuplicate dev (hist.snapshot action), h.module.isSome = true := by
    intro h hh
    rw [hcopy] at hh
    obtain ⟨h₀, -, rfl⟩ := mem_map.mp hh
    rfl
  have hpop : ∀ work : UndoWork, work.history = dtHistoryDuplicate dev (hist.snapshot action) →
      (checkDeletedInstances (createDeletedModules work).1).1.history =
        dtHistoryDuplicate dev (hist.snapshot action) := by
    intro work hwork
    rw [createDeletedModules_of_isSome work (hwork ▸ hsome), checkDeletedInstances_history, hwork]
  rw [← hcopy]
  cases action with
  | undo =>
    apply hpop
    split
    · exact rebuildMultiPriority_history _
    · exact rebuildMultiPriority_history _
  | redo =>
    apply hpop
    split
    · exact rebuildMultiPriority_history _
    · exact rebuildMultiPriority_history _

/-! ## From the signals to the record -/

-- the signals that the panel may see between the two of a change
inductive PanelSignal where
  | willChange (history : List SnapshotItem) (historyEnd : Nat) (iopOrderList : List IopOrderEntry)
  | change (dev : Develop)

def panelStep : PanelSignal → HistoryPanel
  | .willChange history historyEnd iopOrderList =>
      libHistoryWillChangeCallback panel history historyEnd iopOrderList
  | .change dev => libHistoryChangeCallback panel dev

def Nested : Prop := 1 ≤ panel.recordHistoryLevel

def previous : List SnapshotItem × Nat × List IopOrderEntry :=
  (panel.previousSnapshot, panel.previousHistoryEnd, panel.previousIopOrderList)

theorem panelStep_previous {panel : HistoryPanel} (hnested : Nested panel) (signal : PanelSignal) :
    previous (panelStep panel signal) = previous panel := by
  cases signal with
  | willChange history historyEnd iopOrderList =>
    have hlevel : (panel.recordHistoryLevel == 0) = false := by
      rw [beq_eq_false_iff_ne]
      unfold Nested at hnested
      omega
    simp only [panelStep, libHistoryWillChangeCallback, hlevel, Bool.and_false]
    rfl
  | change dev =>
    unfold panelStep libHistoryChangeCallback
    dsimp only
    split <;> rfl

theorem panelRun_previous {panel : HistoryPanel} {signals : List PanelSignal}
    (hnested : AllStates panelStep Nested panel signals) :
    previous (signals.foldl panelStep panel) = previous panel := by
  induction signals generalizing panel with
  | nil => rfl
  | cons signal signals ih =>
    rw [foldl_cons, ih hnested.2, panelStep_previous hnested.1]

/-- The history, its end and the order are those of `dev`. -/
def Installs (inst : Installed) (dev : Develop) : Prop :=
  inst.history = dev.history.map snapshotItem ∧ inst.historyEnd = dev.historyEnd ∧
    inst.iopOrderList = dev.iopOrderList

-- the panel after `DT_SIGNAL_DEVELOP_HISTORY_WILL_CHANGE`, as `dt_dev_add_history_item` raises it
def willChangeFrom : HistoryPanel :=
  libHistoryWillChangeCallback panel (dtHistoryDuplicate dev (dev.history.map snapshotItem))
    dev.historyEnd (dtIopprIopOrderCopyDeep dev.iopOrderList)

theorem undo_installs_iff (devUndo : Develop) (heapEnd : ModuleRef) (others : List UndoHistory)
    {hist : UndoHistory} (hsnap : hist.beforeSnapshot = dev.history.map snapshotItem)
    (hend : hist.beforeEnd = dev.historyEnd) (horder : hist.beforeIopOrderList = dev.iopOrderList) :
    Installs (popUndo devUndo heapEnd others hist .undo) dev ↔
      dev.history.reverse = dev.history := by
  have hhist := popUndo_history devUndo heapEnd others hist .undo hsnap
  unfold Installs
  rw [hhist, (map_injective_iff.mpr snapshotItem_injective).eq_iff]
  have hrest : (popUndo devUndo heapEnd others hist .undo).iopOrderList = dev.iopOrderList := by
    rw [← horder]
    exact dtIopprIopOrderCopyDeep_eq _
  exact ⟨fun h => h.1, fun h => ⟨h, hend, hrest⟩⟩

theorem redo_installs (devRedo : Develop) (heapEnd : ModuleRef) (others : List UndoHistory)
    {hist : UndoHistory} (hsnap : hist.afterSnapshot = dev.history.reverse.map snapshotItem)
    (hend : hist.afterEnd = dev.historyEnd) (horder : hist.afterIopOrderList = dev.iopOrderList) :
    Installs (popUndo devRedo heapEnd others hist .redo) dev := by
  have hhist := popUndo_history devRedo heapEnd others hist .redo hsnap
  rw [reverse_reverse] at hhist
  refine ⟨hhist, hend, ?_⟩
  rw [← horder]
  exact dtIopprIopOrderCopyDeep_eq _

/-- A change of `dev` to `dev'` that the panel sees from its announcement to its end: the record
is there, redo puts `dev'` back, and undo puts `dev` back if and only if its history reads the same
from either end, for the snapshot of `dev` is copied three times and that of `dev'` twice. -/
theorem undo_redo_installs_iff (panel : HistoryPanel) (dev dev' devUndo devRedo : Develop)
    (signals : List PanelSignal) (heapEnd : ModuleRef) (othersUndo othersRedo : List UndoHistory)
    (hrecord : panel.recordUndo = true) (hlevel : panel.recordHistoryLevel = 0)
    (hnested : AllStates panelStep Nested (willChangeFrom panel dev) signals)
    (hback : (signals.foldl panelStep (willChangeFrom panel dev)).recordUndo = true ∧
      (signals.foldl panelStep (willChangeFrom panel dev)).recordHistoryLevel = 1) :
    ∃ hist rest,
      (libHistoryChangeCallback (signals.foldl panelStep (willChangeFrom panel dev)) dev').undoList
        = hist :: rest ∧
      ((Installs (popUndo devUndo heapEnd othersUndo hist .undo) dev ∧
        Installs (popUndo devRedo heapEnd othersRedo hist .redo) dev') ↔
        dev.history.reverse = dev.history) := by
  have hkeep := panelRun_previous hnested
  generalize signals.foldl panelStep (willChangeFrom panel dev) = panel' at hback hkeep
  -- the announcement came at level 0 with recording on, so it was kept
  have hprev : previous (willChangeFrom panel dev) =
      (dev.history.reverse.map snapshotItem, dev.historyEnd, dev.iopOrderList) := by
    unfold willChangeFrom libHistoryWillChangeCallback
    rw [hrecord, hlevel, dtHistoryDuplicate_snapshot, dtIopprIopOrderCopyDeep_eq]
    rfl
  rw [hprev] at hkeep
  simp only [previous, Prod.mk.injEq] at hkeep
  obtain ⟨hsnap, hend, horder⟩ := hkeep
  let hist := recordedHistory { panel' with recordHistoryLevel := 0 } dev'
  have hlist : (libHistoryChangeCallback panel' dev').undoList = hist :: panel'.undoList := by
    unfold libHistoryChangeCallback
    rw [hback.1, hback.2]
    rfl
  refine ⟨hist, panel'.undoList, hlist, ?_⟩
  have hbefore : hist.beforeSnapshot = dev.history.map snapshotItem := by
    change dtHistoryDuplicate dev' panel'.previousSnapshot = _
    rw [hsnap, dtHistoryDuplicate_snapshot, reverse_reverse]
  have hbeforeOrder : hist.beforeIopOrderList = dev.iopOrderList := by
    change dtIopprIopOrderCopyDeep panel'.previousIopOrderList = _
    rw [horder, dtIopprIopOrderCopyDeep_eq]
  have hredo : Installs (popUndo devRedo heapEnd othersRedo hist .redo) dev' :=
    redo_installs dev' devRedo heapEnd othersRedo (dtHistoryDuplicate_snapshot dev' dev'.history)
      rfl (dtIopprIopOrderCopyDeep_eq _)
  rw [and_iff_left hredo]
  exact undo_installs_iff dev devUndo heapEnd othersUndo hbefore hend hbeforeOrder

def quietPanel : HistoryPanel where
  recordUndo := true
  recordHistoryLevel := 0
  previousSnapshot := []
  previousHistoryEnd := 0
  previousIopOrderList := []
  undoList := []

def twoItems : Develop where
  focusHash := 0
  historyEnd := 2
  history := [sampleItem 0, sampleItem 1]
  iop := [0, 1, 2]
  iopOrderList := sampleOrders
  forms := []
  guiModule := none
  previewDownsampling := 1
  mods := sampleModule

def threeItems : Develop :=
  { twoItems with historyEnd := 3, history := [sampleItem 0, sampleItem 1, sampleItem 2] }

theorem undo_redo_installs_iff_threeItems :
    ∃ hist rest,
      (libHistoryChangeCallback (willChangeFrom quietPanel twoItems) threeItems).undoList
        = hist :: rest ∧
      ((Installs (popUndo threeItems 3 [] hist .undo) twoItems ∧
        Installs (popUndo twoItems 3 [] hist .redo) threeItems) ↔
        twoItems.history.reverse = twoItems.history) :=
  undo_redo_installs_iff quietPanel twoItems threeItems threeItems twoItems [] 3 [] [] rfl rfl
    (show (1 : Int) ≤ 1 by decide) ⟨rfl, rfl⟩

theorem undo_threeItems_not_installs :
    ∃ hist,
      (libHistoryChangeCallback (willChangeFrom quietPanel twoItems) threeItems).undoList = [hist] ∧
      ¬ Installs (popUndo threeItems 3 [] hist .undo) twoItems := by
  refine ⟨_, rfl, fun hinst => ?_⟩
  cases hinst.1

end DTLite
