import DTLite.Develop.HistoryEdits
import DTLite.Develop.LoadedRows

/-!
# Instances of a module

`dt_iop_gui_duplicate` makes another instance of a module and `dt_dev_module_remove` takes one
away.  An instance is known by its operation and its `multi_priority`, in `dev->iop` as in the
history and in the library.
-/

namespace DTLite

open List Develop

/-- What the functions of the gui look at before they touch the history. -/
structure GuiState where
  -- `darktable.gui && !darktable.gui->reset`
  listening : Bool
  -- `dev->gui_attached`
  attached : Bool

variable (gui : GuiState) (dev : Develop)

def dtDevAddHistoryItem (m : ModuleRef) (enable : Bool) :
    Develop :=
  if gui.listening && gui.attached then (devAddHistoryItemExt dev m enable false false).1
  else dev

-- For a module
def dtDevAddMasksHistoryItem (m : ModuleRef) (enable : Bool) :
    Develop :=
  if gui.listening && gui.attached then (devAddHistoryItemExt dev m enable false true).1
  else dev

def dtIopRequestFocus (m : ModuleRef) : Develop :=
  if !gui.listening || dev.guiModule == some m then dev
  else { dev with focusHash := dev.focusHash + 1, guiModule := some m }

/-- What the modules' own code and the masks give to `dt_iop_gui_duplicate`. -/
structure DuplicateCode where
  -- `flags() & IOP_FLAGS_HIDDEN`
  isHidden : String → Bool
  -- the module's `reload_defaults`: its params, its default params and whether it is on by default
  reloadDefaults : IopModule → Blob × Blob × Bool
  -- `dt_masks_iop_use_same_as` up to its history item: the forms and the blend params that name the
  -- group, `none` if the other module has no group
  useSameAs : Develop → ModuleRef → ModuleRef → Option (List MasksForm × Blob)

section Duplicate

variable (inst : Installation) (code : DuplicateCode) (gui : GuiState)

def dtIopReloadDefaults (module : IopModule) : IopModule :=
  { module with
    params := (code.reloadDefaults module).1
    defaultParams := (code.reloadDefaults module).2.1
    defaultEnabled := (code.reloadDefaults module).2.2
    blendParams := module.defaultBlendopParams }

/-- The module is loaded with `multi_priority` 0; the largest one of the others is not used. -/
def dtDevModuleDuplicate (w : Workspace) (base : ModuleRef) : Option Workspace :=
  (inst.iopSo (w.dev.mods base).op).loadModule.map fun module =>
    { dev := w.dev.setModule w.heapEnd
        { module with
          op := (w.dev.mods base).op
          multiPriority := 0
          iopOrder := 0
          instanceNo := (w.dev.mods base).instanceNo }
      heapEnd := w.heapEnd + 1 }

-- `mask_id = 0`
def clearMaskId (blendParams : Blob) : Blob :=
  blendParams.take 16 ++ [0, 0, 0, 0] ++ blendParams.drop 20

def copyInstanceMasks (dev : Develop) (m base : ModuleRef) : Develop :=
  let dev := dev.setModule m
    { dev.mods m with blendParams := clearMaskId (dev.mods m).blendParams }
  match code.useSameAs dev m base with
  | none => dev
  | some (forms, blendParams) =>
      dtDevAddMasksHistoryItem gui
        { dev.setModule m { dev.mods m with blendParams := blendParams } with forms := forms } m
        true

-- "if(copy_params)"
def copyParams (dev : Develop) (m base : ModuleRef) : Develop :=
  let dev := dev.setModule m { dev.mods m with params := (dev.mods base).params }
  if (dev.mods m).supportsBlending then
    let dev := dev.setModule m { dev.mods m with blendParams := (dev.mods base).blendParams }
    if 0 < blendMaskId (dev.mods base).blendParams then copyInstanceMasks code gui dev m base
    else dev
  else dev

-- "we set the gui part of it", with its defaults and its first history item
def initDuplicate (dev : Develop) (m base : ModuleRef) (copy : Bool) : Develop :=
  let dev := dev.setModule m (dtIopReloadDefaults code (dev.mods m))
  let dev := if copy then copyParams code gui dev m base else dev
  dtDevAddHistoryItem gui dev m true

/-- The new module, `none` if it could not be loaded. -/
def dtIopGuiDuplicate (w : Workspace) (base : ModuleRef) (copy : Bool) :
    Option (Workspace × ModuleRef) :=
  let w := { w with dev := dtDevAddHistoryItem gui w.dev base false }
  (dtDevModuleDuplicate inst w base).map fun dup =>
    let m := w.heapEnd
    let dev :=
      if code.isHidden (dup.dev.mods m).op then dup.dev
      else initDuplicate code gui dup.dev m base copy
    ({ dup with dev := dtIopRequestFocus gui dev m }, m)

end Duplicate

/-! ### What stays -/

/-- The modules of the develop and their instances are the same. -/
structure SameInstances (dev dev' : Develop) : Prop where
  iop_eq : dev'.iop = dev.iop
  key_eq : ∀ n, moduleKey (dev'.mods n) = moduleKey (dev.mods n)

namespace SameInstances

variable {dev dev' dev'' : Develop}

theorem refl (dev : Develop) : SameInstances dev dev := ⟨rfl, fun _ => rfl⟩

theorem trans (h : SameInstances dev dev') (h' : SameInstances dev' dev'') :
    SameInstances dev dev'' :=
  ⟨h'.iop_eq.trans h.iop_eq, fun n => (h'.key_eq n).trans (h.key_eq n)⟩

theorem setModule {m : ModuleRef} {module : IopModule}
    (hkey : moduleKey module = moduleKey (dev.mods m)) :
    SameInstances dev (dev.setModule m module) := by
  refine ⟨rfl, fun n => ?_⟩
  by_cases hn : n = m
  · rw [hn, setModule_mods_self, hkey]
  · rw [setModule_mods_of_ne _ _ hn]

-- switching a module on
theorem setEnabled (m : ModuleRef) (on : Bool) : SameInstances dev (dev.setModule m
    (if on then { dev.mods m with enabled := true } else dev.mods m)) := by
  apply setModule
  split <;> rfl

theorem keys_eq (h : SameInstances dev dev') : dev'.keys = dev.keys := by
  unfold Develop.keys
  rw [h.iop_eq]
  exact map_congr_left fun m _ => h.key_eq m

end SameInstances

section Stays

variable (code : DuplicateCode) (gui : GuiState) (dev : Develop) (m base : ModuleRef)

theorem sameInstances_pushItem (enable includeMasks : Bool) :
    SameInstances dev (pushItem dev m enable includeMasks) := by
  have hset : SameInstances dev _ := .setEnabled m enable
  exact ⟨hset.iop_eq, hset.key_eq⟩

theorem sameInstances_changeTopItem (h : HistoryItem ModuleRef) (includeMasks : Bool) :
    SameInstances dev (changeTopItem dev m h includeMasks) := by
  have hset : SameInstances dev _ := .setEnabled m (!h.enabled && !(dev.mods m).enabled)
  exact ⟨hset.iop_eq, hset.key_eq⟩

theorem sameInstances_devAddHistoryItemExt (enable noImage includeMasks : Bool) :
    SameInstances dev (devAddHistoryItemExt dev m enable noImage includeMasks).1 := by
  have hobsolete : SameInstances dev (removeObsolete dev) := ⟨rfl, fun _ => rfl⟩
  apply hobsolete.trans
  simp only [devAddHistoryItemExt]
  cases topItem (removeObsolete dev) with
  | none => exact sameInstances_pushItem _ m enable includeMasks
  | some h =>
    dsimp only
    split
    · exact sameInstances_pushItem _ m enable includeMasks
    · exact sameInstances_changeTopItem _ m h includeMasks

theorem sameInstances_dtDevAddHistoryItem (enable : Bool) :
    SameInstances dev (dtDevAddHistoryItem gui dev m enable) := by
  unfold dtDevAddHistoryItem
  split
  · exact sameInstances_devAddHistoryItemExt dev m enable false false
  · exact SameInstances.refl dev

theorem sameInstances_dtDevAddMasksHistoryItem (enable : Bool) :
    SameInstances dev (dtDevAddMasksHistoryItem gui dev m enable) := by
  unfold dtDevAddMasksHistoryItem
  split
  · exact sameInstances_devAddHistoryItemExt dev m enable false true
  · exact SameInstances.refl dev

theorem sameInstances_dtIopRequestFocus : SameInstances dev (dtIopRequestFocus gui dev m) := by
  unfold dtIopRequestFocus
  split
  · exact SameInstances.refl dev
  · exact ⟨rfl, fun _ => rfl⟩

theorem sameInstances_copyMasks : SameInstances dev (copyInstanceMasks code gui dev m base) := by
  have hclear : SameInstances dev (dev.setModule m
      { dev.mods m with blendParams := clearMaskId (dev.mods m).blendParams }) :=
    SameInstances.setModule rfl
  apply hclear.trans
  simp only [copyInstanceMasks]
  split
  · exact SameInstances.refl _
  · rename_i forms blendParams _
    generalize dev.setModule m _ = cleared
    have hblend : SameInstances cleared
        (cleared.setModule m { cleared.mods m with blendParams := blendParams }) :=
      SameInstances.setModule rfl
    have hforms : SameInstances cleared
        { cleared.setModule m { cleared.mods m with blendParams := blendParams } with
          forms := forms } :=
      ⟨hblend.iop_eq, hblend.key_eq⟩
    exact hforms.trans (sameInstances_dtDevAddMasksHistoryItem gui _ m true)

theorem sameInstances_copyParams : SameInstances dev (copyParams code gui dev m base) := by
  have hparams : SameInstances dev (dev.setModule m
      { dev.mods m with params := (dev.mods base).params }) := SameInstances.setModule rfl
  apply hparams.trans
  simp only [copyParams]
  generalize dev.setModule m _ = set
  split
  · have hblend : SameInstances set (set.setModule m
        { set.mods m with blendParams := (set.mods base).blendParams }) :=
      SameInstances.setModule rfl
    apply hblend.trans
    split
    · exact sameInstances_copyMasks code gui _ m base
    · exact SameInstances.refl _
  · exact SameInstances.refl _

theorem sameInstances_initDuplicate (copy : Bool) :
    SameInstances dev (initDuplicate code gui dev m base copy) := by
  have hreload : SameInstances dev (dev.setModule m (dtIopReloadDefaults code (dev.mods m))) :=
    SameInstances.setModule rfl
  apply hreload.trans
  simp only [initDuplicate]
  generalize dev.setModule m _ = loaded
  have hcopy : SameInstances loaded
      (if copy then copyParams code gui loaded m base else loaded) := by
    split
    · exact sameInstances_copyParams code gui loaded m base
    · exact SameInstances.refl _
  exact hcopy.trans (sameInstances_dtDevAddHistoryItem gui _ m true)

end Stays

/-- No two of the modules of the develop and `m` have the same operation and `multi_priority`. -/
def DistinctWith (dev : Develop) (m : ModuleRef) : Prop :=
  ∀ a ∈ m :: dev.iop, ∀ b ∈ m :: dev.iop, moduleKey (dev.mods a) = moduleKey (dev.mods b) → a = b

instance decidableDistinctWith (dev : Develop) (m : ModuleRef) : Decidable (DistinctWith dev m) :=
  inferInstanceAs (Decidable (∀ a ∈ _, _))

theorem distinctWith_iff {dev : Develop} {m : ModuleRef} (hkeys : dev.keys.Nodup)
    (hm : m ∉ dev.iop) : DistinctWith dev m ↔ moduleKey (dev.mods m) ∉ dev.keys := by
  constructor
  · intro hdist hmem
    obtain ⟨n, hn, hkey⟩ := mem_map.mp hmem
    have hnm : n = m := hdist n (mem_cons_of_mem _ hn) m mem_cons_self hkey
    exact hm (hnm ▸ hn)
  · intro hnew a ha b hb hkey
    have hother : ∀ n ∈ dev.iop, moduleKey (dev.mods n) ≠ moduleKey (dev.mods m) := by
      intro n hn heq
      exact hnew (heq ▸ mem_map_of_mem hn)
    rcases mem_cons.mp ha with hma | hia <;> rcases mem_cons.mp hb with hmb | hib
    · rw [hma, hmb]
    · rw [hma] at hkey
      exact absurd hkey.symm (hother b hib)
    · rw [hmb] at hkey
      exact absurd hkey (hother a hia)
    · exact inj_on_of_nodup_map hkeys hia hib hkey

section NewModule

variable {inst : Installation} {code : DuplicateCode} {gui : GuiState} {w w' dup : Workspace}
  {base m : ModuleRef} {copy : Bool}

theorem dtDevModuleDuplicate_eq_some (h : dtDevModuleDuplicate inst w base = some dup) :
    dup.dev.iop = w.dev.iop ∧ (∀ n, n ≠ w.heapEnd → dup.dev.mods n = w.dev.mods n) ∧
      moduleKey (dup.dev.mods w.heapEnd) = ((w.dev.mods base).op, 0) := by
  obtain ⟨module, -, rfl⟩ := Option.map_eq_some_iff.mp h
  refine ⟨rfl, fun n => setModule_mods_of_ne _ _, ?_⟩
  rw [setModule_mods_self]
  rfl

/-- The new module is the one just allocated, as it was loaded, and the other modules are what they
were. -/
theorem dtIopGuiDuplicate_eq_some (hfresh : w.Fresh)
    (h : dtIopGuiDuplicate inst code gui w base copy = some (w', m)) :
    m = w.heapEnd ∧ w'.dev.iop = w.dev.iop ∧ w'.dev.keys = w.dev.keys ∧
      moduleKey (w'.dev.mods m) = ((w.dev.mods base).op, 0) := by
  obtain ⟨dup, hdup, hret⟩ := Option.map_eq_some_iff.mp h
  obtain ⟨rfl, rfl⟩ := Prod.mk.inj hret
  obtain ⟨hiop, hmods, hnew⟩ := dtDevModuleDuplicate_eq_some hdup
  have hadd := sameInstances_dtDevAddHistoryItem gui w.dev base false
  -- the rest of the function works on the module, the history and the forms
  have hrest : SameInstances dup.dev (dtIopRequestFocus gui
      (if code.isHidden (dup.dev.mods w.heapEnd).op then dup.dev
        else initDuplicate code gui dup.dev w.heapEnd base copy) w.heapEnd) := by
    refine SameInstances.trans ?_ (sameInstances_dtIopRequestFocus gui _ _)
    split
    · exact SameInstances.refl _
    · exact sameInstances_initDuplicate code gui dup.dev w.heapEnd base copy
  have hkeys : dup.dev.keys = w.dev.keys := by
    rw [← hadd.keys_eq]
    unfold Develop.keys
    rw [hiop]
    apply map_congr_left
    intro n hn
    rw [hadd.iop_eq] at hn
    rw [hmods n (hfresh n hn).ne]
  refine ⟨rfl, hrest.iop_eq.trans (hiop.trans hadd.iop_eq), hrest.keys_eq.trans hkeys, ?_⟩
  have hop : ((dtDevAddHistoryItem gui w.dev base false).mods base).op = (w.dev.mods base).op :=
    congrArg Prod.fst (hadd.key_eq base)
  rw [hrest.key_eq, hnew, hop]

/-- Whatever module is duplicated, the new one is not among the modules of the develop; and it has
an instance number of its own only if the develop has no instance 0 of the operation. -/
theorem dtIopGuiDuplicate_not_mem_iop (hfresh : w.Fresh) (hkeys : w.dev.keys.Nodup)
    (h : dtIopGuiDuplicate inst code gui w base copy = some (w', m)) :
    m ∉ w'.dev.iop ∧ (DistinctWith w'.dev m ↔ ((w.dev.mods base).op, 0) ∉ w.dev.keys) := by
  obtain ⟨rfl, hiop, hkeys', hkey⟩ := dtIopGuiDuplicate_eq_some hfresh h
  have hm : w.heapEnd ∉ w'.dev.iop := by
    intro hmem
    rw [hiop] at hmem
    exact (hfresh _ hmem).ne rfl
  refine ⟨hm, ?_⟩
  rw [distinctWith_iff (hkeys'.symm ▸ hkeys) hm, hkeys', hkey]

end NewModule

def sampleCode : DuplicateCode where
  isHidden _ := false
  reloadDefaults module := (module.defaultParams, module.defaultParams, module.defaultEnabled)
  useSameAs _ _ _ := none

theorem dtIopGuiDuplicate_exposure :
    ∃ r, dtIopGuiDuplicate sampleInstallation sampleCode ⟨true, true⟩ sampleWorkspace 2 false =
        some r ∧
      r.2 ∉ r.1.dev.iop ∧
      (DistinctWith r.1.dev r.2 ↔
        ((sampleWorkspace.dev.mods 2).op, 0) ∉ sampleWorkspace.dev.keys) := by
  obtain ⟨r, hr⟩ : ∃ r, dtIopGuiDuplicate sampleInstallation sampleCode ⟨true, true⟩
      sampleWorkspace 2 false = some r := ⟨_, rfl⟩
  exact ⟨r, hr, dtIopGuiDuplicate_not_mem_iop (by decide) (by decide) hr⟩

/-- A second exposure: it is not in the pipe, and it has the number of the first one. -/
theorem duplicate_lost :
    sampleWorkspace.Fresh ∧ sampleWorkspace.dev.keys.Nodup ∧
    ∃ r, dtIopGuiDuplicate sampleInstallation sampleCode ⟨true, true⟩ sampleWorkspace 2 false =
        some r ∧
      ¬ (r.2 ∈ r.1.dev.iop ∧ DistinctWith r.1.dev r.2) ∧
      2 ∈ r.1.dev.iop ∧ r.2 ≠ 2 ∧ moduleKey (r.1.dev.mods r.2) = moduleKey (r.1.dev.mods 2) := by
  refine ⟨by decide, by decide, _, rfl, ?_⟩
  decide

/-! ## Taking an instance away -/

/-- The fields of `dt_develop_t` that `dt_dev_module_remove` works on; `history_end` is an `int`. -/
structure HistoryStack where
  history : List (HistoryItem ModuleRef)
  historyEnd : Int
  iop : List ModuleRef
deriving DecidableEq

namespace HistoryStack

-- The items at positions below `history_end`, and the others.
def active (s : HistoryStack) : List (HistoryItem ModuleRef) := s.history.take s.historyEnd.toNat

def inactive (s : HistoryStack) : List (HistoryItem ModuleRef) := s.history.drop s.historyEnd.toNat

end HistoryStack

-- The loop over the history: every item of the module is unlinked, wherever it stands.
def removeItems (m : ModuleRef) :
    List (HistoryItem ModuleRef) → Int → List (HistoryItem ModuleRef) × Int
  | [], historyEnd => ([], historyEnd)
  | hist :: next, historyEnd =>
      if hist.module = m then removeItems m next (historyEnd - 1)
      else
        let r := removeItems m next historyEnd
        (hist :: r.1, r.2)

def dtDevModuleRemove (guiAttached : Bool) (s : HistoryStack) (m : ModuleRef) : HistoryStack :=
  let r := if guiAttached then removeItems m s.history s.historyEnd else (s.history, s.historyEnd)
  { history := r.1, historyEnd := r.2, iop := s.iop.erase m }

variable (m : ModuleRef)

def itemsWithout (items : List (HistoryItem ModuleRef)) :
    List (HistoryItem ModuleRef) :=
  items.filter fun h => h.module ≠ m

variable (items : List (HistoryItem ModuleRef))

theorem removeItems_eq (historyEnd : Int) :
    removeItems m items historyEnd =
      (itemsWithout m items, historyEnd - items.countP fun h => h.module = m) := by
  induction items generalizing historyEnd with
  | nil => simp [removeItems, itemsWithout]
  | cons hist next ih =>
    unfold removeItems
    by_cases hmod : hist.module = m
    · rw [if_pos hmod, ih, countP_cons_of_pos (by simpa using hmod)]
      simp only [itemsWithout, hmod, ne_eq, not_true_eq_false, decide_false, Bool.false_eq_true,
        not_false_eq_true, filter_cons_of_neg, Prod.mk.injEq, true_and]
      omega
    · rw [if_neg hmod, ih]
      simp [itemsWithout, hmod]

theorem length_itemsWithout :
    (itemsWithout m items).length + items.countP (fun h => h.module = m) = items.length := by
  have hsplit := length_eq_countP_add_countP (fun h : HistoryItem ModuleRef => h.module ≠ m)
    (l := items)
  unfold itemsWithout
  rw [hsplit, ← countP_eq_length_filter]
  simp

theorem cut_append_iff {α : Type} (xs ys : List α) (k : Nat) :
    ((xs ++ ys).take (xs.length - k) = xs ∧ (xs ++ ys).drop (xs.length - k) = ys) ↔
      k = 0 ∨ xs.length = 0 := by
  constructor
  · intro h
    have hlen := congrArg length h.1
    rw [length_take] at hlen
    omega
  · intro h
    have hcut : xs.length - k = xs.length := by omega
    rw [hcut]
    exact ⟨take_left, drop_left⟩

section Boundary

variable (s : HistoryStack) (m : ModuleRef)

theorem dtDevModuleRemove_history :
    (dtDevModuleRemove true s m).history =
      itemsWithout m s.active ++ itemsWithout m s.inactive := by
  have hsplit : s.history = s.active ++ s.inactive := (take_append_drop _ _).symm
  change (removeItems m s.history s.historyEnd).1 = _
  rw [removeItems_eq]
  nth_rewrite 1 [hsplit]
  exact filter_append ..

theorem dtDevModuleRemove_historyEnd :
    s.inactive = [] ∧
        (itemsWithout m s.active).length ≤ (dtDevModuleRemove true s m).historyEnd.toNat ∨
      (dtDevModuleRemove true s m).historyEnd.toNat =
        (itemsWithout m s.active).length - s.inactive.countP fun h => h.module = m := by
  have hend : (dtDevModuleRemove true s m).historyEnd =
      s.historyEnd - s.history.countP fun h => h.module = m := by
    change (removeItems m s.history s.historyEnd).2 = _
    rw [removeItems_eq]
  have hcount : s.history.countP (fun h => h.module = m) =
      s.active.countP (fun h => h.module = m) + s.inactive.countP fun h => h.module = m := by
    rw [← countP_append]
    exact congrArg _ (take_append_drop _ _).symm
  have hactive := length_itemsWithout m s.active
  have hlen : s.active.length = min s.historyEnd.toNat s.history.length := length_take
  by_cases hbelow : s.historyEnd.toNat ≤ s.history.length
  · right
    omega
  · -- an end past the list leaves nothing above it
    have hnil : s.inactive = [] := drop_eq_nil_of_le (by omega)
    left
    refine ⟨hnil, ?_⟩
    rw [hnil, countP_nil] at hcount
    omega

/-- The boundary is where it belongs if and only if no item above it was removed or no item below
it stays. -/
theorem dtDevModuleRemove_active_iff :
    ((dtDevModuleRemove true s m).active = itemsWithout m s.active ∧
      (dtDevModuleRemove true s m).inactive = itemsWithout m s.inactive) ↔
    (∀ h ∈ s.inactive, h.module ≠ m) ∨ ∀ h ∈ s.active, h.module = m := by
  have habove : (∀ h ∈ s.inactive, h.module ≠ m) ↔
      s.inactive.countP (fun h => h.module = m) = 0 := by
    simp
  have hbelow : (∀ h ∈ s.active, h.module = m) ↔ (itemsWithout m s.active).length = 0 := by
    simp [itemsWithout]
  rw [habove, hbelow]
  change (take _ (dtDevModuleRemove true s m).history = _ ∧
    drop _ (dtDevModuleRemove true s m).history = _) ↔ _
  rw [dtDevModuleRemove_history]
  rcases dtDevModuleRemove_historyEnd s m with ⟨hnil, hle⟩ | hend
  · have hnone : itemsWithout m s.inactive = [] := by
      rw [hnil]
      rfl
    rw [hnone, hnil, append_nil, take_of_length_le hle, drop_of_length_le hle]
    simp
  · rw [hend]
    exact cut_append_iff ..

end Boundary

-- colorin stands below `history_end`, exposure above it
def undoneExposure : HistoryStack where
  history := [sampleItem 1, sampleItem 2]
  historyEnd := 1
  iop := [0, 1, 2]

/-- Removing exposure, which was undone, undoes colorin as well. -/
theorem remove_undone :
    undoneExposure.active = [sampleItem 1] ∧
    (dtDevModuleRemove true undoneExposure 2).active = [] ∧
    ¬ ((dtDevModuleRemove true undoneExposure 2).active = itemsWithout 2 undoneExposure.active ∧
      (dtDevModuleRemove true undoneExposure 2).inactive =
        itemsWithout 2 undoneExposure.inactive) := by
  decide

end DTLite
