import DTLite.Develop.HistoryEdits
import DTLite.Develop.LoadedRows
import Mathlib.Algebra.Ring.Int.Defs
import Mathlib.Algebra.Ring.Nat

/-!
# Merging a module into a history

`dt_history_merge_module_into_history` looks for the module of the destination that takes the
settings of a source module, or makes a new instance for them, and adds a history item for it.
-/

namespace DTLite

open Reasoning List

variable (dev : Develop)

-- `dt_iop_get_module_by_op_priority` on `dev->iop`.
def dtIopGetModuleByOpPriority (operation : String) (multiPriority : Int) :
    Option ModuleRef :=
  dev.iop.find? fun m =>
    (dev.mods m).op == operation
      && ((dev.mods m).multiPriority == multiPriority || multiPriority == -1)

-- As a test. It looks at the items above `history_end` as well.
def searchHistoryByOp (modSrc : IopModule) : Bool :=
  dev.history.any fun h => (dev.mods h.module).op == modSrc.op

-- "check if there's a module with the same (operation, multi_name) on dev->iop", "but only if it
-- hasn't been used already".
def moduleByName (modSrc : IopModule) (modulesUsed : List ModuleRef) :
    Option ModuleRef :=
  dev.iop.find? fun m =>
    (dev.mods m).op == modSrc.op && (dev.mods m).multiName == modSrc.multiName
      && !modulesUsed.contains m

/-- The module of the destination that a source module goes to. -/
inductive Destination where
  /-- "can't find single instance module" or "can't find base instance module" -/
  | missing
  /-- a module of the same operation and name, which goes to `modules_used` -/
  | named (m : ModuleRef)
  /-- the only instance of the operation, or one that is not in the history -/
  | base (m : ModuleRef)
  /-- a new instance -/
  | create
deriving DecidableEq, Repr

def baseModule (modSrc : IopModule) : Destination :=
  match dtIopGetModuleByOpPriority dev modSrc.op (-1) with
  | some m => .base m
  | none => .missing

variable {destination : Destination} {placed : Workspace × ModuleRef} (inst : Installation)

/-- The first part of `dt_history_merge_module_into_history`, up to the choice of `mod_replace`. -/
def mergeDestination (dev : Develop) (modSrc : IopModule) (modulesUsed : List ModuleRef)
    (append : Bool) : Destination :=
  -- one-instance modules always replace the existing one
  if (inst.iopSo modSrc.op).oneInstance then baseModule dev modSrc
  else
    match if append then none else moduleByName dev modSrc modulesUsed with
    | some m => .named m
    | none => if searchHistoryByOp dev modSrc then .create else baseModule dev modSrc

-- A new instance with the priority of the source module, `none` if it cannot be loaded.
def newInstance (dev : Develop) (modSrc : IopModule) : Option IopModule :=
  match dtIopGetModuleByOpPriority dev modSrc.op (-1), (inst.iopSo modSrc.op).loadModule with
  | some _, some module =>
      some
        { module with
          op := modSrc.op
          instanceNo := modSrc.instanceNo
          multiPriority := modSrc.multiPriority
          iopOrder := dtIopprGetIopOrder dev.iopOrderList modSrc.op modSrc.multiPriority }
  | _, _ => none

-- The settings of the source module, copied over a module of the same operation.
def copySettings (modSrc module : IopModule) : IopModule :=
  { module with
    enabled := modSrc.enabled
    multiName := modSrc.multiName
    params := modSrc.params
    blendParams := if module.supportsBlending then modSrc.blendParams else module.blendParams }

variable (w : Workspace)

def placeModule (modSrc : IopModule) : Destination → Option (Workspace × ModuleRef)
  | .missing => none
  | .named m | .base m =>
      let dev := w.dev.setModule m (copySettings modSrc (w.dev.mods m))
      some ({ w with dev := { dev with iop := sortIopByOrder dev.mods dev.iop } }, m)
  | .create =>
      (newInstance inst w.dev modSrc).map fun module =>
        let dev := w.dev.setModule w.heapEnd (copySettings modSrc module)
        ({ dev :=
            { dev with
              iop := dev.iop.orderedInsert
                (fun a b => (dev.mods a).iopOrder ≤ (dev.mods b).iopOrder) w.heapEnd }
           heapEnd := w.heapEnd + 1 },
          w.heapEnd)

-- An `int` in a memory block, the least significant byte first.
def intAt (blob : Blob) (offset : Nat) : Int :=
  let n : Nat := ((blob.drop offset).take 4).foldr (fun byte n => byte.toNat + 256 * n) 0
  if n < 2 ^ 31 then n else n - 2 ^ 32

-- `blend_params->mask_id`.
def maskId (blendParams : Blob) : Int := intAt blendParams 16

-- The formid goes to the first free place of the table, which has `nb` places; 0 marks a free one.
def storeUsed (used : List Int) (formid : Int) (nb : Nat) : List Int :=
  if formid = 0 ∨ used.contains formid ∨ nb ≤ used.length then used else used ++ [formid]

/-- The source has no bound on the depth, `depth` is ours; groups without cycles nest at most as
deep as there are forms. -/
def fillUsedForms (forms : List MasksForm) (nb : Nat) : Nat → Int → List Int → List Int
  | 0, _, used => used
  | depth + 1, formid, used =>
      let used := storeUsed used formid nb
      match dtMasksGetFromIdExt forms formid with
      | some form =>
          if form.type.testBit 2 then -- DT_MASKS_GROUP
            form.points.foldl
              (fun used point => fillUsedForms forms nb depth (intAt point 0) used) used
          else used
      | none => used

variable (forms : Option (List MasksForm))

-- "record the masks used by this module"; `forms` are those of `dev_src`, if there is one.
def formsUsed (modSrc : IopModule) : List Int :=
  match forms with
  | some forms =>
      if modSrc.supportsBlending ∧ maskId modSrc.blendParams ≠ 0 then
        (fillUsedForms forms forms.length (forms.length + 1) (maskId modSrc.blendParams)
          []).takeWhile (0 < ·)
      else []
  | none => []

def copyForm (srcForms destForms : List MasksForm) (formid : Int) : List MasksForm :=
  match dtMasksGetFromIdExt srcForms formid with
  | some form =>
      (match dtMasksGetFromIdExt destForms formid with
        | some old => destForms.erase old
        | none => destForms) ++ [form]
  | none => destForms

-- "and we add it to history".
def addMergedItem (m : ModuleRef) (includeMasks : Bool) : Develop :=
  let dev := (devAddHistoryItemExt dev m false true includeMasks).1
  let dev := dtIopprResyncModulesOrder dev
  dtDevPopHistoryItemsExt dev dev.historyEnd

def mergePlaced (modSrc : IopModule) (dev : Develop)
    (m : ModuleRef) : Develop :=
  let used := formsUsed forms modSrc
  addMergedItem { dev with forms := used.foldl (copyForm (forms.getD [])) dev.forms } m (used ≠ [])

def Destination.addUsed (modulesUsed : List ModuleRef) : Destination → List ModuleRef
  | .named m => modulesUsed ++ [m]
  | _ => modulesUsed

structure MergeResult where
  w : Workspace
  modulesUsed : List ModuleRef
  -- the module that took the settings, `none` if `module_added` is 0
  module : Option ModuleRef

/-- `forms` are the forms of `dev_src`, which may be `NULL`. -/
def dtHistoryMergeModuleIntoHistory (modSrc : IopModule)
    (modulesUsed : List ModuleRef) (append : Bool) : MergeResult :=
  let destination := mergeDestination inst w.dev modSrc modulesUsed append
  match placeModule inst w modSrc destination with
  | none => ⟨w, destination.addUsed modulesUsed, none⟩
  | some (placed, m) =>
      ⟨{ placed with dev := mergePlaced forms modSrc placed.dev m },
        destination.addUsed modulesUsed, some m⟩

theorem pop_key (cnt : Nat) (m : ModuleRef) :
    moduleKey ((dtDevPopHistoryItemsExt dev cnt).mods m) = moduleKey (dev.mods m) :=
  ((pop_same dev cnt m).obs moduleKey fun _ _ => rfl).trans
    (poppedModules_frame moduleKey (fun _ _ => rfl) (fun _ _ => rfl) dev cnt m)

theorem devAddHistoryItemExt_obs {γ : Type} (obs : IopModule → γ)
    (hobs : ∀ module enabled, obs { module with enabled := enabled } = obs module)
    (dev : Develop) (m : ModuleRef) (enable noImage includeMasks : Bool) (n : ModuleRef) :
    obs ((devAddHistoryItemExt dev m enable noImage includeMasks).1.mods n) = obs (dev.mods n) := by
  have hset : ∀ module, obs module = obs (dev.mods m) →
      obs (Function.update dev.mods m module n) = obs (dev.mods n) := by
    intro module hmodule
    by_cases hn : n = m
    · subst hn
      rw [Function.update_self, hmodule]
    · rw [Function.update_of_ne hn]
  have hpush : obs ((pushItem (removeObsolete dev) m enable includeMasks).mods n) =
      obs (dev.mods n) := by
    apply hset
    cases enable
    · rfl
    · exact hobs (dev.mods m) true
  rcases devAddHistoryItemExt_cases dev m enable noImage includeMasks with
    heq | ⟨pre, h, hkept, hmod, heq⟩
  · rw [heq]
    exact hpush
  · rw [heq]
    apply hset
    split
    · exact hobs (dev.mods m) true
    · rfl

section AddMergedItem

variable (dev : Develop) (m : ModuleRef) (includeMasks : Bool)

theorem addMergedItem_iop_perm : (addMergedItem dev m includeMasks).iop.Perm dev.iop := by
  obtain ⟨pre, item, hadd⟩ := devAddHistoryItemExt_addsItem dev m false true includeMasks
  refine (pop_iop_perm _ _).trans ((dtIopprResyncModulesOrder_perm _).trans ?_)
  rw [hadd.iop_eq]

theorem addMergedItem_key (n : ModuleRef) :
    moduleKey ((addMergedItem dev m includeMasks).mods n) = moduleKey (dev.mods n) := by
  refine (pop_key _ _ n).trans ?_
  rw [(dtIopprResyncModulesOrder_same _ n).obs moduleKey fun _ _ => rfl]
  exact devAddHistoryItemExt_obs moduleKey (fun _ _ => rfl) ..

theorem addMergedItem_keys_perm : (addMergedItem dev m includeMasks).keys.Perm dev.keys := by
  have hkeys : (addMergedItem dev m includeMasks).keys =
      (addMergedItem dev m includeMasks).iop.map fun n => moduleKey (dev.mods n) :=
    map_congr_left fun n _ => addMergedItem_key dev m includeMasks n
  rw [hkeys]
  exact (addMergedItem_iop_perm dev m includeMasks).map _

end AddMergedItem

variable (forms : Option (List MasksForm)) (modSrc : IopModule)

theorem mergePlaced_iop_perm (dev : Develop) (m : ModuleRef) :
    (mergePlaced forms modSrc dev m).iop.Perm dev.iop :=
  addMergedItem_iop_perm ..

theorem mergePlaced_keys_perm (dev : Develop) (m : ModuleRef) :
    (mergePlaced forms modSrc dev m).keys.Perm dev.keys :=
  addMergedItem_keys_perm ..

theorem newInstance_key {inst : Installation} {dev : Develop} {modSrc module : IopModule}
    (h : newInstance inst dev modSrc = some module) : moduleKey module = moduleKey modSrc := by
  unfold newInstance at h
  split at h
  · cases h
    rfl
  · cases h

/-- A call makes a new instance. -/
def createsInstance (dev : Develop) (modSrc : IopModule) (modulesUsed : List ModuleRef)
    (append : Bool) : Bool :=
  mergeDestination inst dev modSrc modulesUsed append == .create
    && (newInstance inst dev modSrc).isSome

section Keys

variable {inst : Installation} {w : Workspace} {modSrc : IopModule}

/-- The module `placed.2`, which was `module`, has taken the settings; the modules are those of
`iop`. -/
structure TakesSettings (w : Workspace) (modSrc module : IopModule) (iop : List ModuleRef)
    (placed : Workspace × ModuleRef) : Prop where
  self : placed.1.dev.mods placed.2 = copySettings modSrc module
  frame : ∀ n, n ≠ placed.2 → placed.1.dev.mods n = w.dev.mods n
  iop_perm : placed.1.dev.iop.Perm iop
  history : placed.1.dev.history = w.dev.history
  historyEnd : placed.1.dev.historyEnd = w.dev.historyEnd

theorem placeModule_cases (hplaced : placeModule inst w modSrc destination = some placed) :
    (destination ≠ .create ∧ placed.1.heapEnd = w.heapEnd ∧
        TakesSettings w modSrc (w.dev.mods placed.2) w.dev.iop placed) ∨
      destination = .create ∧ placed.1.heapEnd = w.heapEnd + 1 ∧ placed.2 = w.heapEnd ∧
        ∃ module, moduleKey module = moduleKey modSrc ∧
          TakesSettings w modSrc module (w.heapEnd :: w.dev.iop) placed := by
  have hself := Develop.setModule_mods_self w.dev
  have hframe := @Develop.setModule_mods_of_ne w.dev
  cases destination with
  | missing => cases hplaced
  | named m | base m =>
    cases hplaced
    exact .inl ⟨Destination.noConfusion, rfl, hself .., fun _ => hframe _,
      perm_insertionSort .., rfl, rfl⟩
  | create =>
    obtain ⟨module, hnew, rfl⟩ := Option.map_eq_some_iff.mp hplaced
    exact .inr ⟨rfl, rfl, rfl, module, newInstance_key hnew, hself .., fun _ => hframe _,
      perm_orderedInsert .., rfl, rfl⟩

theorem placeModule_keys_perm (hw : w.Fresh)
    (hplaced : placeModule inst w modSrc destination = some placed) :
    placed.1.dev.keys.Perm
      (if destination = .create then moduleKey modSrc :: w.dev.keys else w.dev.keys) := by
  rcases placeModule_cases hplaced with ⟨hne, -, htakes⟩ | ⟨rfl, -, hend, module, hkey, htakes⟩
  · rw [if_neg hne]
    have hkeys : placed.1.dev.keys = placed.1.dev.iop.map fun n => moduleKey (w.dev.mods n) := by
      refine map_congr_left fun n _ => ?_
      by_cases hn : n = placed.2
      · rw [hn, htakes.self]
        rfl
      · rw [htakes.frame n hn]
    rw [hkeys]
    exact htakes.iop_perm.map _
  · -- the other modules stay as they are
    have hself : moduleKey (placed.1.dev.mods w.heapEnd) = moduleKey modSrc := by
      rw [← hend, htakes.self]
      exact hkey
    have hold : (w.dev.iop.map fun n => moduleKey (placed.1.dev.mods n)) = w.dev.keys := by
      refine map_congr_left fun n hn => ?_
      rw [htakes.frame n (hend ▸ ne_of_lt (hw n hn))]
    rw [← hself, ← hold]
    exact htakes.iop_perm.map _

theorem placeModule_isSome_of_create :
    (placeModule inst w modSrc .create).isSome = (newInstance inst w.dev modSrc).isSome :=
  Option.isSome_map

/-- The modules have the keys they had, and that of the source module once more if it got an
instance. -/
theorem merge_keys_perm (hw : w.Fresh) (forms : Option (List MasksForm))
    (modulesUsed : List ModuleRef) (append : Bool) :
    (dtHistoryMergeModuleIntoHistory inst w forms modSrc modulesUsed append).w.dev.keys.Perm
      (if createsInstance inst w.dev modSrc modulesUsed append then
        moduleKey modSrc :: w.dev.keys
      else w.dev.keys) := by
  rw [createsInstance, dtHistoryMergeModuleIntoHistory]
  set destination := mergeDestination inst w.dev modSrc modulesUsed append
  cases hplaced : placeModule inst w modSrc destination with
  | none =>
    have hfail : ¬ (destination == .create && (newInstance inst w.dev modSrc).isSome) := by
      rw [Bool.and_eq_true, beq_iff_eq]
      rintro ⟨hcreate, hsome⟩
      rw [hcreate] at hplaced
      rw [← placeModule_isSome_of_create, hplaced] at hsome
      cases hsome
    rw [if_neg hfail]
  | some placed =>
    have hperm := placeModule_keys_perm hw hplaced
    refine (mergePlaced_keys_perm forms modSrc placed.1.dev placed.2).trans (hperm.trans ?_)
    by_cases hcreate : destination = .create
    · rw [hcreate] at hplaced
      have hsome : (newInstance inst w.dev modSrc).isSome := by
        rw [← placeModule_isSome_of_create, hplaced]
        rfl
      rw [if_pos hcreate, if_pos (by rw [hcreate, hsome]; rfl)]
    · rw [if_neg hcreate, if_neg (by simp [hcreate])]

end Keys

theorem placeModule_fresh {inst : Installation} {w : Workspace} (hw : w.Fresh) {modSrc : IopModule}
    (hplaced : placeModule inst w modSrc destination = some placed) : placed.1.Fresh := by
  intro n hn
  rcases placeModule_cases hplaced with ⟨-, hend, htakes⟩ | ⟨-, hend, -, module, -, htakes⟩
  · rw [hend]
    exact hw n (htakes.iop_perm.mem_iff.mp hn)
  · rw [hend]
    rcases mem_cons.mp (htakes.iop_perm.mem_iff.mp hn) with rfl | hmem
    · exact Nat.lt_succ_self _
    · exact Nat.lt_succ_of_lt (hw n hmem)

theorem merge_fresh {inst : Installation} {w : Workspace} (hw : w.Fresh)
    (forms : Option (List MasksForm)) (modSrc : IopModule) (modulesUsed : List ModuleRef)
    (append : Bool) :
    (dtHistoryMergeModuleIntoHistory inst w forms modSrc modulesUsed append).w.Fresh := by
  rw [dtHistoryMergeModuleIntoHistory]
  cases hplaced : placeModule inst w modSrc
      (mergeDestination inst w.dev modSrc modulesUsed append) with
  | none => exact hw
  | some placed =>
    intro n hn
    exact placeModule_fresh hw hplaced n
      ((mergePlaced_iop_perm forms modSrc placed.1.dev placed.2).mem_iff.mp hn)

structure MergeCall where
  forms : Option (List MasksForm)
  modSrc : IopModule
  modulesUsed : List ModuleRef
  append : Bool

def mergeCall (call : MergeCall) : Workspace :=
  (dtHistoryMergeModuleIntoHistory inst w call.forms call.modSrc call.modulesUsed call.append).w

-- No module has the operation and priority of an instance that the call makes.
def MakesNewKey (call : MergeCall) : Prop :=
  createsInstance inst w.dev call.modSrc call.modulesUsed call.append →
    moduleKey call.modSrc ∉ w.dev.keys

instance decidableMakesNewKey (inst : Installation) (w : Workspace) (call : MergeCall) :
    Decidable (MakesNewKey inst w call) :=
  inferInstanceAs (Decidable (_ → _))

theorem mergeCall_keys_nodup_iff {inst : Installation} {w : Workspace} (hw : w.Fresh)
    (hkeys : w.dev.keys.Nodup) (call : MergeCall) :
    (mergeCall inst w call).dev.keys.Nodup ↔ MakesNewKey inst w call := by
  have hperm := @merge_keys_perm inst w call.modSrc hw call.forms call.modulesUsed call.append
  rw [mergeCall, hperm.nodup_iff]
  by_cases hcreates : createsInstance inst w.dev call.modSrc call.modulesUsed call.append
  · rw [if_pos hcreates, nodup_cons, and_iff_left hkeys]
    exact ⟨fun h _ => h, fun h => h hcreates⟩
  · rw [if_neg hcreates]
    exact iff_of_true hkeys fun h => absurd h hcreates

/-- The modules keep pairwise distinct keys along a run of calls exactly if every instance that a
call makes has a new key. -/
theorem merge_distinct_keys_iff (inst : Installation) (w : Workspace) (hw : w.Fresh)
    (hkeys : w.dev.keys.Nodup) (calls : List MergeCall) :
    AllStates (mergeCall inst) (fun w => w.dev.keys.Nodup) w calls ↔
      AllSteps (mergeCall inst) (MakesNewKey inst) w calls :=
  @allStates_iff_allSteps_of_aux _ _ (mergeCall inst) _ _ Workspace.Fresh
    (fun _ call hw => merge_fresh hw call.forms call.modSrc call.modulesUsed call.append)
    (fun _ call hw hkeys => mergeCall_keys_nodup_iff hw hkeys call) w calls hw hkeys

def sampleEdited : Workspace :=
  { sampleWorkspace with
    dev := { sampleWorkspace.dev with history := [sampleItem 2], historyEnd := 1 } }

theorem merge_distinct_keys_second :
    AllStates (mergeCall sampleInstallation) (fun w => w.dev.keys.Nodup) sampleEdited
      [⟨none, { sampleModule 2 with multiPriority := 1, multiName := "sky" }, [], true⟩,
        ⟨none, { sampleModule 2 with multiPriority := 1, multiName := "sky" }, [], false⟩] :=
  (merge_distinct_keys_iff sampleInstallation sampleEdited (by decide) (by decide) _).mpr
    (by decide)

/-- The base instance appended to a history that has one: the new instance gets its priority. -/
theorem merge_append_same_key :
    sampleEdited.dev.keys.Nodup ∧
      ¬ AllStates (mergeCall sampleInstallation) (fun w => w.dev.keys.Nodup) sampleEdited
        [⟨none, sampleModule 2, [], true⟩] := by
  refine ⟨by decide, fun h => ?_⟩
  have hlast : (mergeCall sampleInstallation sampleEdited
      ⟨none, sampleModule 2, [], true⟩).dev.keys.Nodup := h.last
  exact absurd hlast (by decide)

end DTLite
