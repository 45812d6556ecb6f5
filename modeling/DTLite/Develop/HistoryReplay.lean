import DTLite.Develop.History

/-!
# Going to a position of the history

What `dt_dev_pop_history_items_ext` leaves in every module and in the list of forms, and when two
of these calls in a row amount to the second one alone.
-/

namespace DTLite

open Reasoning List Option HistoryItem

theorem resetModule_idem (orders : List IopOrderEntry) (module : IopModule) :
    resetModule orders (resetModule orders module) = resetModule orders module := rfl

/-- A module's field after the pop: the one of its last item below the position, else the one that
the reset leaves. -/
theorem poppedModules_obs {γ : Type} (obs : IopModule → γ) (val : HistoryItem ModuleRef → γ)
    (hval : ∀ h module, obs (replayItem h module) = val h) (dev : Develop) (cnt : Nat)
    {m : ModuleRef} (hm : m ∈ dev.iop) :
    obs (poppedModules dev cnt m) =
      ((lastFor module m (dev.history.take cnt)).map val).getD
        (obs (resetModule dev.iopOrderList (dev.mods m))) := by
  unfold poppedModules
  rw [foldl_update_lastFor module hval,
    foldl_update_idem (resetModule_idem dev.iopOrderList), if_pos hm]

theorem poppedModules_frame {γ : Type} (obs : IopModule → γ)
    (hreset : ∀ orders module, obs (resetModule orders module) = obs module)
    (hitem : ∀ h module, obs (replayItem h module) = obs module) (dev : Develop) (cnt : Nat)
    (m : ModuleRef) : obs (poppedModules dev cnt m) = obs (dev.mods m) := by
  unfold poppedModules
  rw [foldl_update_frame module hitem, foldl_update_idem (resetModule_idem dev.iopOrderList)]
  split
  · exact hreset ..
  · rfl

variable (dev : Develop) (cnt : Nat)

theorem pop_same (m : ModuleRef) :
    SameButOrder (poppedModules dev cnt m) ((dtDevPopHistoryItemsExt dev cnt).mods m) := by
  have hresync := dtIopprResyncModulesOrder_same
    { dev with historyEnd := cnt, mods := poppedModules dev cnt } m
  have hcheck := dtIopprCheckDuplicateIopOrder_same (dtIopprResyncModulesOrder
    { dev with historyEnd := cnt, mods := poppedModules dev cnt }) m
  unfold dtDevPopHistoryItemsExt
  split <;> exact hresync.trans hcheck

@[simp] theorem pop_history : (dtDevPopHistoryItemsExt dev cnt).history = dev.history := by
  unfold dtDevPopHistoryItemsExt
  split <;> rfl

@[simp] theorem pop_historyEnd : (dtDevPopHistoryItemsExt dev cnt).historyEnd = cnt := by
  unfold dtDevPopHistoryItemsExt
  split <;> rfl

theorem pop_iop_perm : (dtDevPopHistoryItemsExt dev cnt).iop.Perm dev.iop := by
  have hperm := dtIopprResyncModulesOrder_perm
    { dev with historyEnd := cnt, mods := poppedModules dev cnt }
  unfold dtDevPopHistoryItemsExt
  split <;> exact hperm

theorem mem_pop_iop (m : ModuleRef) : m ∈ (dtDevPopHistoryItemsExt dev cnt).iop ↔ m ∈ dev.iop :=
  (pop_iop_perm dev cnt).mem_iff

section Fields

variable (dev : Develop) (cnt : Nat) {m : ModuleRef} (hm : m ∈ dev.iop)
include hm

theorem pop_params : ((dtDevPopHistoryItemsExt dev cnt).mods m).params =
    ((lastFor module m (dev.history.take cnt)).map params).getD
      (dev.mods m).defaultParams :=
  ((pop_same dev cnt m).obs IopModule.params fun _ _ => rfl).trans
    (poppedModules_obs IopModule.params params (fun _ _ => rfl) dev cnt hm)

theorem pop_blendParams : ((dtDevPopHistoryItemsExt dev cnt).mods m).blendParams =
    ((lastFor module m (dev.history.take cnt)).map blendParams).getD
      (dev.mods m).defaultBlendopParams :=
  ((pop_same dev cnt m).obs IopModule.blendParams fun _ _ => rfl).trans
    (poppedModules_obs IopModule.blendParams blendParams (fun _ _ => rfl) dev cnt hm)

theorem pop_enabled : ((dtDevPopHistoryItemsExt dev cnt).mods m).enabled =
    ((lastFor module m (dev.history.take cnt)).map enabled).getD
      (dev.mods m).defaultEnabled :=
  ((pop_same dev cnt m).obs IopModule.enabled fun _ _ => rfl).trans
    (poppedModules_obs IopModule.enabled enabled (fun _ _ => rfl) dev cnt hm)

/-- The reset does not touch the name: without an item below the position it stays. -/
theorem pop_multiName : ((dtDevPopHistoryItemsExt dev cnt).mods m).multiName =
    ((lastFor module m (dev.history.take cnt)).map multiName).getD
      (dev.mods m).multiName :=
  ((pop_same dev cnt m).obs IopModule.multiName fun _ _ => rfl).trans
    (poppedModules_obs IopModule.multiName multiName (fun _ _ => rfl) dev cnt hm)

end Fields

def IopModule.defaults (module : IopModule) : Blob × Blob × Bool :=
  (module.defaultParams, module.defaultBlendopParams, module.defaultEnabled)

theorem pop_defaults (m : ModuleRef) :
    ((dtDevPopHistoryItemsExt dev cnt).mods m).defaults = (dev.mods m).defaults :=
  ((pop_same dev cnt m).obs IopModule.defaults fun _ _ => rfl).trans
    (poppedModules_frame IopModule.defaults (fun _ _ => rfl) (fun _ _ => rfl) dev cnt m)

/-- The forms of the last active item that carries any, as loading the image leaves them. -/
def FormsLoaded : Prop := dev.forms = lastForms dev.active

theorem lastForms_append_of_noForms (l₁ l₂ : List (HistoryItem ModuleRef))
    (hnone : ∀ h ∈ l₂, h.forms = []) : lastForms (l₁ ++ l₂) = lastForms l₁ := by
  unfold lastForms
  rw [foldl_append]
  induction l₂ with
  | nil => rfl
  | cons h l₂ ih =>
    rw [foldl_cons, if_neg (not_not.mpr (hnone h mem_cons_self))]
    exact ih fun x hx => hnone x (mem_cons_of_mem _ hx)

theorem lastForms_take_of_not_masksChanged (hmasks : masksChanged dev cnt = false) :
    lastForms (dev.history.take cnt) = lastForms dev.active := by
  have hnone : ∀ h ∈ (dev.history.take (max cnt dev.historyEnd)).drop (min cnt dev.historyEnd),
      h.forms = [] := by
    intro h hmem
    have hfalse := any_eq_false.mp hmasks h hmem
    simpa using hfalse
  have hmax := lastForms_append_of_noForms (dev.history.take (min cnt dev.historyEnd)) _ hnone
  have hsplit : dev.history.take (min cnt dev.historyEnd) ++
      (dev.history.take (max cnt dev.historyEnd)).drop (min cnt dev.historyEnd) =
      dev.history.take (max cnt dev.historyEnd) := by
    have htake : dev.history.take (min cnt dev.historyEnd) =
        (dev.history.take (max cnt dev.historyEnd)).take (min cnt dev.historyEnd) := by
      have hle : min cnt dev.historyEnd ≤ max cnt dev.historyEnd := by omega
      rw [take_take, Nat.min_eq_left hle]
    rw [htake, take_append_drop]
  rw [hsplit] at hmax
  -- the two positions are the smaller and the larger one, in some order
  rcases Nat.le_total cnt dev.historyEnd with hle | hle
  · rw [Nat.max_eq_right hle, Nat.min_eq_left hle] at hmax
    exact hmax.symm
  · rw [Nat.max_eq_left hle, Nat.min_eq_right hle] at hmax
    exact hmax

theorem pop_forms : (dtDevPopHistoryItemsExt dev cnt).forms =
    if masksChanged dev cnt then lastForms (dev.history.take cnt) else dev.forms := by
  unfold dtDevPopHistoryItemsExt
  split <;> rfl

/-- An item from the one position up to the other carries forms. -/
def FormsBetween (history : List (HistoryItem ModuleRef)) (i j : Nat) : Prop :=
  ∃ k h, min i j ≤ k ∧ k < max i j ∧ history[k]? = some h ∧ h.forms ≠ []

theorem masksChanged_iff :
    masksChanged dev cnt = true ↔ FormsBetween dev.history cnt dev.historyEnd := by
  rw [masksChanged, List.any_eq_true]
  constructor
  · rintro ⟨h, hmem, hforms⟩
    obtain ⟨k, hk⟩ := mem_iff_getElem?.mp hmem
    rw [getElem?_drop, getElem?_take] at hk
    split at hk
    case isTrue hlt => exact ⟨_, h, Nat.le_add_right _ k, hlt, hk, of_decide_eq_true hforms⟩
    case isFalse => cases hk
  · rintro ⟨k, h, hmin, hmax, hk, hforms⟩
    refine ⟨h, mem_iff_getElem?.mpr ⟨k - min cnt dev.historyEnd, ?_⟩, decide_eq_true hforms⟩
    rw [getElem?_drop, Nat.add_sub_cancel' hmin, getElem?_take_of_lt hmax, hk]

theorem FormsBetween.cut {history : List (HistoryItem ModuleRef)} {i j : Nat}
    (h : FormsBetween history i j) (k : Nat) :
    FormsBetween history i k ∨ FormsBetween history k j := by
  obtain ⟨n, item, hmin, hmax, hitem⟩ := h
  have hside : (min i k ≤ n ∧ n < max i k) ∨ (min k j ≤ n ∧ n < max k j) := by omega
  exact hside.imp (fun h => ⟨n, item, h.1, h.2, hitem⟩) fun h => ⟨n, item, h.1, h.2, hitem⟩

theorem FormsBetween.symm {history : List (HistoryItem ModuleRef)} {i j : Nat}
    (h : FormsBetween history i j) : FormsBetween history j i := by
  rwa [FormsBetween, Nat.min_comm, Nat.max_comm]

theorem pop_pop_forms_iff (a b : Nat) :
    (dtDevPopHistoryItemsExt (dtDevPopHistoryItemsExt dev a) b).forms =
        (dtDevPopHistoryItemsExt dev b).forms ↔
      (FormsBetween dev.history a dev.historyEnd → ¬ FormsBetween dev.history b dev.historyEnd →
        FormsLoaded dev) := by
  classical
  have hsecond := masksChanged_iff (dtDevPopHistoryItemsExt dev a) b
  rw [pop_history, pop_historyEnd] at hsecond
  rw [pop_forms _ b, pop_forms dev b, pop_forms dev a, pop_history]
  simp only [hsecond, masksChanged_iff]
  -- forms on one of the three ways are on one of the two others
  by_cases hb : FormsBetween dev.history b dev.historyEnd
  · rw [if_pos hb]
    refine iff_of_true ?_ fun _ hnone => absurd hb hnone
    by_cases hab : FormsBetween dev.history b a
    · rw [if_pos hab]
    · have hkeep := lastForms_take_of_not_masksChanged (dtDevPopHistoryItemsExt dev a) b
        (Bool.eq_false_iff.mpr (mt hsecond.mp hab))
      rw [Develop.active, pop_history, pop_historyEnd] at hkeep
      rw [if_neg hab, if_pos ((hb.cut a).resolve_left hab), hkeep]
  · have hkeep := lastForms_take_of_not_masksChanged dev b
      (Bool.eq_false_iff.mpr (mt (masksChanged_iff dev b).mp hb))
    rw [if_neg hb, hkeep]
    by_cases ha : FormsBetween dev.history a dev.historyEnd
    · rw [if_pos ((ha.cut b).resolve_right hb).symm]
      exact ⟨fun h _ _ => h.symm, fun h => (h ha hb).symm⟩
    · have hab : ¬ FormsBetween dev.history b a := fun h =>
        (h.cut dev.historyEnd).elim hb fun h => ha h.symm
      rw [if_neg hab, if_neg ha]
      exact iff_of_true rfl fun h => absurd h ha

/-- The two develops show the same settings of every module and the same forms. -/
def SameView (dev₁ dev₂ : Develop) : Prop :=
  (∀ m ∈ dev₁.iop,
    (dev₁.mods m).params = (dev₂.mods m).params ∧
    (dev₁.mods m).blendParams = (dev₂.mods m).blendParams ∧
    (dev₁.mods m).enabled = (dev₂.mods m).enabled ∧
    (dev₁.mods m).multiName = (dev₂.mods m).multiName) ∧
  dev₁.forms = dev₂.forms

/-- An item below `b` sets the name of `m` again, or the name below `a` is the one it has. -/
def NameKept (a b : Nat) (m : ModuleRef) : Prop :=
  (∃ h ∈ dev.history.take b, h.module = m) ∨
    ∀ h, lastFor HistoryItem.module m (dev.history.take a) = some h →
      h.multiName = (dev.mods m).multiName

theorem pop_pop_multiName_iff (a b : Nat) {m : ModuleRef} (hm : m ∈ dev.iop) :
    ((dtDevPopHistoryItemsExt (dtDevPopHistoryItemsExt dev a) b).mods m).multiName =
        ((dtDevPopHistoryItemsExt dev b).mods m).multiName ↔ NameKept dev a b m := by
  have hm' : m ∈ (dtDevPopHistoryItemsExt dev a).iop := (mem_pop_iop dev a m).mpr hm
  rw [pop_multiName _ b hm', pop_multiName dev b hm, pop_history]
  unfold NameKept
  cases hb : lastFor module m (dev.history.take b) with
  | some h =>
    have hmem := mem_of_lastFor module hb
    simp only [map_some, getD_some, true_iff]
    exact Or.inl ⟨h, hmem.1, hmem.2⟩
  | none =>
    have hnone := (lastFor_eq_none_iff module).mp hb
    have hleft : ¬ ∃ h ∈ dev.history.take b, h.module = m := by
      rintro ⟨h, hh, hmod⟩
      exact hnone h hh hmod
    rw [or_iff_right hleft, pop_multiName dev a hm]
    cases lastFor module m (dev.history.take a) <;> simp

/-- Going to `a` and then to `b` is going to `b`, exactly when every module's name survives it and
the forms, where the way over `a` replaces them and the direct one does not, are the loaded ones. -/
theorem pop_pop_sameView_iff (a b : Nat) :
    SameView (dtDevPopHistoryItemsExt (dtDevPopHistoryItemsExt dev a) b)
        (dtDevPopHistoryItemsExt dev b) ↔
      (∀ m ∈ dev.iop, NameKept dev a b m) ∧
        (FormsBetween dev.history a dev.historyEnd →
          ¬ FormsBetween dev.history b dev.historyEnd → FormsLoaded dev) := by
  have hmem : ∀ m, m ∈ (dtDevPopHistoryItemsExt (dtDevPopHistoryItemsExt dev a) b).iop ↔
      m ∈ dev.iop := fun m => (mem_pop_iop _ b m).trans (mem_pop_iop dev a m)
  rw [← pop_pop_forms_iff]
  refine and_congr_left fun _ => ⟨fun hview m hm => ?_, fun hname m hm' => ?_⟩
  · exact (pop_pop_multiName_iff dev a b hm).mp (hview m ((hmem m).mpr hm)).2.2.2
  · have hm : m ∈ dev.iop := (hmem m).mp hm'
    have hma : m ∈ (dtDevPopHistoryItemsExt dev a).iop := (mem_pop_iop dev a m).mpr hm
    have hdefaults := pop_defaults dev a m
    simp only [IopModule.defaults, Prod.mk.injEq] at hdefaults
    refine ⟨?_, ?_, ?_, (pop_pop_multiName_iff dev a b hm).mpr (hname m hm)⟩
    · rw [pop_params _ b hma, pop_params dev b hm, pop_history, hdefaults.1]
    · rw [pop_blendParams _ b hma, pop_blendParams dev b hm, pop_history, hdefaults.2.1]
    · rw [pop_enabled _ b hma, pop_enabled dev b hm, pop_history, hdefaults.2.2]

-- an instance that was called "sky" and then "sea", as it stands after loading the image
def renamedInstance : Develop where
  focusHash := 0
  historyEnd := 2
  history := [{ sampleItem 2 with multiName := "sky" }, { sampleItem 2 with multiName := "sea" }]
  iop := [2]
  iopOrderList := sampleOrders
  forms := []
  guiModule := none
  previewDownsampling := 1
  mods := fun m => { sampleModule m with params := [1], enabled := true, multiName := "sea" }

theorem pop_pop_keeps_foreign_name :
    FormsLoaded renamedInstance ∧
      ¬ SameView (dtDevPopHistoryItemsExt (dtDevPopHistoryItemsExt renamedInstance 1) 0)
        (dtDevPopHistoryItemsExt renamedInstance 0) := by
  refine ⟨rfl, fun hview => ?_⟩
  have hname := (hview.1 2 (by decide)).2.2.2
  exact absurd hname (by decide)

end DTLite
