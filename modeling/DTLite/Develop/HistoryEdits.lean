import DTLite.Develop.HistoryReplay
import Mathlib.Data.List.Induction

/-!
# Edits and pops of the history

Whether the live modules agree with the active items, over every sequence of edits and pops.
-/

namespace DTLite

open Reasoning List Develop

/-! ## What adding an item does -/

theorem dropNilItems_eq (history : List (HistoryItem ModuleRef)) (n : Nat) :
    dropNilItems history n = min n history.length := by
  induction n with
  | zero => simp [dropNilItems]
  | succ n ih =>
    unfold dropNilItems
    by_cases hn : n < history.length
    · rw [getElem?_eq_getElem hn, if_neg (by simp)]
      omega
    · rw [getElem?_eq_none (by omega), if_pos (by rfl)]
      omega

-- the items that stay: the active ones, then the kept ones
def keptHistory (dev : Develop) : List (HistoryItem ModuleRef) := dev.active ++ keptModules dev

variable (dev : Develop) (m : ModuleRef) (enable noImage includeMasks : Bool)

theorem removeObsolete_history : (removeObsolete dev).history = keptHistory dev := rfl

theorem removeObsolete_historyEnd : (removeObsolete dev).historyEnd = (keptHistory dev).length := by
  change dropNilItems (keptHistory dev) dev.historyEnd + (keptModules dev).length = _
  rw [dropNilItems_eq]
  unfold keptHistory active
  rw [length_append, length_take]
  by_cases hend : dev.historyEnd ≤ dev.history.length
  · omega
  · -- past the end of the list there is nothing to keep
    have hdrop : dev.history.drop dev.historyEnd = [] := drop_eq_nil_of_le (by omega)
    have hkept : (keptModules dev).length = 0 := by
      unfold keptModules
      rw [hdrop]
      rfl
    omega

theorem topItem_removeObsolete : topItem (removeObsolete dev) = (keptHistory dev).getLast? := by
  unfold topItem
  rw [removeObsolete_historyEnd, getLast?_eq_getElem?]
  cases hlen : (keptHistory dev).length with
  | zero =>
    have hnil : keptHistory dev = [] := length_eq_zero_iff.mp hlen
    rw [hnil]
    rfl
  | succ n => rfl

/-- What `_dev_add_history_item_ext` for the module `m` leaves: the item `item` on top of `pre`,
in step with the live module, and everything else as it was. -/
structure AddsItem (dev : Develop) (m : ModuleRef) (noImage : Bool) (r : Develop × PipeChanged)
    (pre : List (HistoryItem ModuleRef)) (item : HistoryItem ModuleRef) : Prop where
  module_eq : item.module = m
  history_eq : r.1.history = pre ++ [item]
  historyEnd_eq : r.1.historyEnd = (pre ++ [item]).length
  live : ((r.1.mods m).params, (r.1.mods m).enabled) = (item.params, item.enabled)
  frame : ∀ n, n ≠ m → r.1.mods n = dev.mods n
  defaults_eq : (r.1.mods m).defaults = (dev.mods m).defaults
  iop_eq : r.1.iop = dev.iop
  below : (pre = keptHistory dev ∧ r.2 = { synch := !noImage }) ∨
    ∃ h, keptHistory dev = pre ++ [h] ∧ h.module = m ∧ r.2 = { topChanged := !noImage }

theorem pushItem_addsItem :
    ∃ pre item, AddsItem dev m noImage
      (pushItem (removeObsolete dev) m enable includeMasks, { synch := !noImage }) pre item ∧
        item.multiName = (dev.mods m).multiName := by
  refine ⟨keptHistory dev, _, ⟨rfl, rfl, ?_, ?_, ?_, ?_, rfl, Or.inl ⟨rfl, rfl⟩⟩, ?_⟩
  · change (removeObsolete dev).historyEnd + 1 = _
    rw [removeObsolete_historyEnd, length_append]
    rfl
  · simp [pushItem, setModule_mods_self, newItem]
  · intro n hn
    exact setModule_mods_of_ne _ _ hn
  · simp only [pushItem, setModule_mods_self]
    split <;> rfl
  · cases enable <;> rfl

theorem changeTopItem_addsItem {dev : Develop} {m : ModuleRef} {pre : List (HistoryItem ModuleRef)}
    {h : HistoryItem ModuleRef} (hkept : keptHistory dev = pre ++ [h]) (hmod : h.module = m) :
    ∃ item, AddsItem dev m noImage
      (changeTopItem (removeObsolete dev) m h includeMasks, { topChanged := !noImage }) pre item ∧
        item.multiName = (dev.mods m).multiName := by
  have hlen : (keptHistory dev).length = pre.length + 1 := by
    rw [hkept, length_append, length_singleton]
  generalize hr : changeTopItem (removeObsolete dev) m h includeMasks = r
  have hmods : r.mods m = if !h.enabled && !(dev.mods m).enabled
      then { dev.mods m with enabled := true } else dev.mods m := by
    rw [← hr]
    exact setModule_mods_self ..
  have hhist : r.history = pre ++ [changedItem (removeObsolete dev) (r.mods m) h includeMasks] := by
    rw [hmods, ← hr]
    change (removeObsolete dev).history.set ((removeObsolete dev).historyEnd - 1) _ = _
    rw [removeObsolete_historyEnd, removeObsolete_history, hlen, hkept, Nat.add_sub_cancel,
      set_append_right _ _ le_rfl, Nat.sub_self]
    rfl
  refine ⟨changedItem (removeObsolete dev) (r.mods m) h includeMasks,
    ⟨hmod, hhist, ?_, rfl, ?_, ?_, ?_, Or.inr ⟨h, hkept, hmod, rfl⟩⟩, ?_⟩
  · -- `history_end` already counts the item that is overwritten
    rw [← hr, length_append]
    exact (removeObsolete_historyEnd dev).trans hlen
  · intro n hn
    rw [← hr]
    exact setModule_mods_of_ne _ _ hn
  · rw [hmods]
    split <;> rfl
  · rw [← hr]
    rfl
  · rw [hmods]
    split <;> rfl

-- an item of its own, or a change of the top item
theorem devAddHistoryItemExt_cases :
    devAddHistoryItemExt dev m enable noImage includeMasks =
        (pushItem (removeObsolete dev) m enable includeMasks, { synch := !noImage }) ∨
      ∃ pre h, keptHistory dev = pre ++ [h] ∧ h.module = m ∧
        devAddHistoryItemExt dev m enable noImage includeMasks =
          (changeTopItem (removeObsolete dev) m h includeMasks, { topChanged := !noImage }) := by
  simp only [devAddHistoryItemExt]
  cases htop : topItem (removeObsolete dev) with
  | none => exact .inl rfl
  | some h =>
    by_cases hnew : startsNewItem (removeObsolete dev) m includeMasks h = true
    · exact .inl (if_pos hnew)
    · rw [topItem_removeObsolete, getLast?_eq_some_iff] at htop
      obtain ⟨pre, hkept⟩ := htop
      have hmod : h.module = m := by
        by_contra hne
        apply hnew
        simp [startsNewItem, Ne.symm hne]
      exact .inr ⟨pre, h, hkept, hmod, if_neg hnew⟩

theorem devAddHistoryItemExt_named :
    ∃ pre item, AddsItem dev m noImage (devAddHistoryItemExt dev m enable noImage includeMasks)
      pre item ∧ item.multiName = (dev.mods m).multiName := by
  rcases devAddHistoryItemExt_cases dev m enable noImage includeMasks with
    heq | ⟨pre, h, hkept, hmod, heq⟩
  · rw [heq]
    exact pushItem_addsItem dev m enable noImage includeMasks
  · rw [heq]
    exact ⟨pre, changeTopItem_addsItem noImage includeMasks hkept hmod⟩

theorem devAddHistoryItemExt_addsItem :
    ∃ pre item, AddsItem dev m noImage (devAddHistoryItemExt dev m enable noImage includeMasks)
      pre item := by
  obtain ⟨pre, item, hadd, -⟩ := devAddHistoryItemExt_named dev m enable noImage includeMasks
  exact ⟨pre, item, hadd⟩

def pushesItem (includeMasks : Bool) : Bool :=
  (topItem (removeObsolete dev)).all (startsNewItem (removeObsolete dev) m includeMasks)

theorem devAddHistoryItemExt_flags :
    (devAddHistoryItemExt dev m enable noImage includeMasks).2 =
      if pushesItem dev m includeMasks then { synch := !noImage }
      else { topChanged := !noImage } := by
  simp only [devAddHistoryItemExt]
  rw [pushesItem]
  cases topItem (removeObsolete dev) with
  | none => rfl
  | some h =>
    dsimp only [Option.all_some]
    split <;> rfl

section AddsItem

variable {dev : Develop} {m : ModuleRef} {noImage : Bool} {r : Develop × PipeChanged}
  {pre : List (HistoryItem ModuleRef)} {item : HistoryItem ModuleRef}

section

variable (hadd : AddsItem dev m noImage r pre item)
include hadd

theorem AddsItem.active_eq : r.1.active = pre ++ [item] := by
  unfold active
  rw [hadd.history_eq, hadd.historyEnd_eq, take_length]

theorem AddsItem.topItem_eq : topItem r.1 = some item := by
  unfold topItem
  rw [hadd.historyEnd_eq, hadd.history_eq, length_append]
  exact getElem?_concat_length

theorem AddsItem.lastFor_self : lastFor HistoryItem.module m r.1.active = some item := by
  rw [hadd.active_eq, lastFor_concat_self _ _ hadd.module_eq]

theorem AddsItem.lastFor_of_ne {n : ModuleRef} (hne : n ≠ m) :
    lastFor HistoryItem.module n r.1.active = lastFor HistoryItem.module n (keptHistory dev) := by
  have hitem : item.module ≠ n := by
    rw [hadd.module_eq]
    exact Ne.symm hne
  rw [hadd.active_eq, lastFor_concat_ne _ _ hitem]
  rcases hadd.below with ⟨hpre, -⟩ | ⟨h, hkept, hmod, -⟩
  · rw [hpre]
  · have hh : h.module ≠ n := by
      rw [hmod]
      exact Ne.symm hne
    rw [hkept, lastFor_concat_ne _ _ hh]

end

end AddsItem

variable (items : List (HistoryItem ModuleRef))

-- the params and the enabled flag a module gets by replaying `items` from its defaults
def replay (m : ModuleRef) (module : IopModule) :
    Blob × Bool :=
  items.foldl (fun state h => if h.module = m then (h.params, h.enabled) else state)
    (module.defaultParams, module.defaultEnabled)

theorem replay_eq_lastFor (m : ModuleRef) (module : IopModule) :
    replay items m module = ((lastFor HistoryItem.module m items).map fun h =>
      (h.params, h.enabled)).getD (module.defaultParams, module.defaultEnabled) := by
  unfold replay
  induction items using reverseRecOn with
  | nil => rfl
  | append_singleton items h ih =>
    rw [foldl_append, foldl_cons]
    by_cases hmod : h.module = m
    · rw [if_pos hmod, lastFor_concat_self _ _ hmod]
      rfl
    · rw [if_neg hmod, lastFor_concat_ne _ _ hmod]
      exact ih

def IopModule.live (module : IopModule) : Blob × Bool := (module.params, module.enabled)

/-- Every module shows what the active items make of its defaults. -/
def InSync (dev : Develop) : Prop :=
  ∀ m ∈ dev.iop, (dev.mods m).live = replay dev.active m (dev.mods m)

theorem inSync_pop (dev : Develop) (cnt : Nat) : InSync (dtDevPopHistoryItemsExt dev cnt) := by
  intro m hm
  have hiop : m ∈ dev.iop := (mem_pop_iop dev cnt m).mp hm
  have hdefaults := pop_defaults dev cnt m
  simp only [IopModule.defaults, Prod.mk.injEq] at hdefaults
  unfold IopModule.live active
  rw [replay_eq_lastFor, pop_params dev cnt hiop, pop_enabled dev cnt hiop, pop_history,
    pop_historyEnd, hdefaults.1, hdefaults.2.2]
  cases lastFor HistoryItem.module m (dev.history.take cnt) <;> rfl

/-! ## Runs of edits and pops -/

inductive HistoryEvent where
  /-- `dt_dev_pop_history_items_ext` -/
  | pop (cnt : Nat)
  /-- The user changes a module, then `_dev_add_history_item_ext` is called for it. -/
  | edit (m : ModuleRef) (params blendParams : Blob) (enabled : Bool)
      (enable noImage includeMasks : Bool)
  /-- `dt_iop_request_focus`: a module gets the focus, which counts `focus_hash` up. -/
  | requestFocus

def userChange (dev : Develop) (m : ModuleRef) (params blendParams : Blob) (enabled : Bool) :
    Develop :=
  dev.setModule m
    { dev.mods m with params := params, blendParams := blendParams, enabled := enabled }

def historyStep (dev : Develop) : HistoryEvent → Develop
  | .pop cnt => dtDevPopHistoryItemsExt dev cnt
  | .edit m params blendParams enabled enable noImage includeMasks =>
      (devAddHistoryItemExt (userChange dev m params blendParams enabled) m enable noImage
        includeMasks).1
  | .requestFocus => { dev with focusHash := dev.focusHash + 1 }

/-- The items above `history_end` that an edit of `m` would keep say of every other module what it
is set to. -/
def KeptAgree (dev : Develop) (m : ModuleRef) : Prop :=
  ∀ n ∈ dev.iop, n ≠ m → ∀ h, lastFor HistoryItem.module n (keptModules dev) = some h →
    (dev.mods n).live = (h.params, h.enabled)

theorem keptModules_userChange (dev : Develop) (m : ModuleRef) (params blendParams : Blob)
    (enabled : Bool) :
    keptModules (userChange dev m params blendParams enabled) = keptModules dev := by
  have hkept : keptAbove (userChange dev m params blendParams enabled).mods =
      keptAbove dev.mods := by
    funext h
    unfold keptAbove userChange
    by_cases hmod : h.module = m
    · rw [hmod, setModule_mods_self]
    · rw [setModule_mods_of_ne _ _ hmod]
  unfold keptModules
  rw [hkept]
  rfl

theorem keptHistory_userChange (dev : Develop) (m : ModuleRef) (params blendParams : Blob)
    (enabled : Bool) :
    keptHistory (userChange dev m params blendParams enabled) = keptHistory dev := by
  unfold keptHistory
  rw [keptModules_userChange]
  rfl

/-- One edit: the edited module agrees with its new item, and the others agree if and only if the
items kept above `history_end` do. -/
theorem inSync_edit_iff {dev : Develop} (hsync : InSync dev) (m : ModuleRef)
    (params blendParams : Blob) (enabled enable noImage includeMasks : Bool) :
    InSync (historyStep dev (.edit m params blendParams enabled enable noImage includeMasks)) ↔
      KeptAgree dev m := by
  obtain ⟨pre, item, hadd⟩ := devAddHistoryItemExt_addsItem
    (userChange dev m params blendParams enabled) m enable noImage includeMasks
  change InSync (devAddHistoryItemExt _ m enable noImage includeMasks).1 ↔ _
  generalize devAddHistoryItemExt _ m enable noImage includeMasks = r at hadd
  have hself : (r.1.mods m).live = replay r.1.active m (r.1.mods m) := by
    rw [replay_eq_lastFor, hadd.lastFor_self]
    exact hadd.live
  have hframe : ∀ n, n ≠ m → r.1.mods n = dev.mods n := fun n hn =>
    (hadd.frame n hn).trans (setModule_mods_of_ne _ _ hn)
  -- what the new active items make of another module
  have hother : ∀ n, n ≠ m → replay r.1.active n (r.1.mods n) =
      ((lastFor HistoryItem.module n (keptModules dev)).map fun h => (h.params, h.enabled)).getD
        (replay dev.active n (dev.mods n)) := by
    intro n hn
    rw [replay_eq_lastFor, replay_eq_lastFor, hadd.lastFor_of_ne hn, hframe n hn,
      keptHistory_userChange, keptHistory, lastFor_append]
    cases lastFor HistoryItem.module n (keptModules dev) <;> rfl
  have hiop : r.1.iop = dev.iop := hadd.iop_eq
  constructor
  · intro hafter n hn hne h hlast
    have hn' := hafter n (hiop ▸ hn)
    rw [hother n hne, hlast, hframe n hne] at hn'
    exact hn'
  · intro hagree n hn
    by_cases hne : n = m
    · rw [hne]
      exact hself
    · rw [hother n hne, hframe n hne]
      have hn' : n ∈ dev.iop := hiop ▸ hn
      cases hlast : lastFor HistoryItem.module n (keptModules dev) with
      | none => exact hsync n hn'
      | some h => exact hagree n hn' hne h hlast

/-- The condition of `KeptAgree` for edits; going to a position needs none. -/
def KeepsSync (dev : Develop) : HistoryEvent → Prop
  | .edit m _ _ _ _ _ _ => KeptAgree dev m
  | _ => True

theorem inSync_historyStep_iff (dev : Develop) (e : HistoryEvent) (hsync : InSync dev) :
    InSync (historyStep dev e) ↔ KeepsSync dev e := by
  cases e with
  | pop cnt => exact iff_of_true (inSync_pop dev cnt) trivial
  | edit m params blendParams enabled enable noImage includeMasks =>
    exact inSync_edit_iff hsync m params blendParams enabled enable noImage includeMasks
  | requestFocus => exact iff_of_true hsync trivial

/-- From an image opened at any position, the live modules agree with the active items all along
the run if and only if each edit meets kept items that say what the modules are set to. -/
theorem inSync_run_iff (dev : Develop) (cnt : Nat) (events : List HistoryEvent) :
    AllStates historyStep InSync (dtDevPopHistoryItemsExt dev cnt) events ↔
      AllSteps historyStep KeepsSync (dtDevPopHistoryItemsExt dev cnt) events :=
  allStates_iff_allSteps inSync_historyStep_iff (inSync_pop dev cnt)

-- demosaic is always on and has been changed once; colorin has not been touched
def alwaysOnEdited : Develop where
  focusHash := 0
  historyEnd := 1
  history := [sampleItem 0]
  iop := [0, 1]
  iopOrderList := sampleOrders
  forms := []
  guiModule := none
  previewDownsampling := 1
  mods := fun m => { sampleModule m with
    hideEnableButton := m = 0
    defaultEnabled := m = 0
    enabled := m = 0
    params := if m = 0 then [1] else [0] }

/-- Going to the start and changing the other module brings the item back, not the params. -/
theorem edit_after_pop_not_inSync :
    InSync (dtDevPopHistoryItemsExt alwaysOnEdited 0) ∧
      ¬ InSync (historyStep (dtDevPopHistoryItemsExt alwaysOnEdited 0)
        (.edit 1 [2] [0] true true false false)) := by
  refine ⟨inSync_pop _ _, fun hsync => ?_⟩
  exact absurd (hsync 0 (by decide)) (by decide)

end DTLite
