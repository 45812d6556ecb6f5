import DTLite.Common.MergedModule
import Mathlib.Data.Finset.Card

/-!
# Pasting several modules

A merge paste calls `dt_history_merge_module_into_history` for one source module after the other and
hands `modules_used` on from call to call.
-/

namespace DTLite

open Reasoning List Option HistoryItem

-- The module `m` has an active item, and the last one has the settings of the source module.
def Holds (dev : Develop) (m : ModuleRef) (modSrc : IopModule) : Prop :=
  (lastFor HistoryItem.module m dev.active).map (fun h => (h.params, h.multiName)) =
    some (modSrc.params, modSrc.multiName)

variable {w r : Workspace} {m : ModuleRef} {modSrc : IopModule}

section Merged

variable {pre : List (HistoryItem ModuleRef)} {item : HistoryItem ModuleRef}
variable (h : MergedAt w modSrc r m pre item)
include h

theorem MergedAt.op_eq (n : ModuleRef) (hn : n ∈ w.dev.iop) :
    (r.dev.mods n).op = (w.dev.mods n).op :=
  congrArg Prod.fst (h.key n hn)

theorem MergedAt.holds : Holds r.dev m modSrc := by
  rw [Holds, h.active, h.history_eq, lastFor_concat_self _ _ h.module_eq, map_some, h.params,
    h.itemName]

theorem MergedAt.other (hactive : w.dev.active = w.dev.history) {n : ModuleRef} (hne : n ≠ m) :
    lastFor HistoryItem.module n r.dev.active = lastFor HistoryItem.module n w.dev.active := by
  rw [h.active, h.history_eq, hactive, lastFor_module_put (h.below hactive) h.module_eq,
    if_neg (Ne.symm hne)]

theorem MergedAt.name {n : ModuleRef} (hn : n ∈ r.dev.iop) {x : HistoryItem ModuleRef}
    (hlast : lastFor HistoryItem.module n r.dev.active = some x) :
    (r.dev.mods n).multiName = x.multiName := by
  rw [h.multiName n hn, hlast]
  rfl

end Merged

/-- The operation of the source module allows several instances, the destination has a module of
it, and a new one can be loaded: both develops of a paste load every installed module. -/
structure Mergeable (inst : Installation) (dev : Develop) (modSrc : IopModule) : Prop where
  multiple : (inst.iopSo modSrc.op).oneInstance = false
  loads : (inst.iopSo modSrc.op).loadModule.isSome
  base : ∃ m ∈ dev.iop, (dev.mods m).op = modSrc.op

variable {inst : Installation}

theorem merge_modulesUsed (hmultiple : (inst.iopSo modSrc.op).oneInstance = false)
    (w : Workspace) (forms : Option (List MasksForm)) (used : List ModuleRef) :
    (dtHistoryMergeModuleIntoHistory inst w forms modSrc used false).modulesUsed =
      used ++ (moduleByName w.dev modSrc used).toList := by
  have hused : (dtHistoryMergeModuleIntoHistory inst w forms modSrc used false).modulesUsed =
      (mergeDestination inst w.dev modSrc used false).addUsed used := by
    rw [dtHistoryMergeModuleIntoHistory]
    split <;> rfl
  rw [hused, mergeDestination, hmultiple, if_neg Bool.false_ne_true, if_neg Bool.false_ne_true]
  cases moduleByName w.dev modSrc used with
  | some m => rfl
  | none =>
    rw [toList_none, append_nil]
    unfold baseModule
    dsimp only
    split
    · rfl
    · split <;> rfl

/-! ## The paste -/

/-- A merge paste under way, with the module that each source module was put into so far. -/
structure MergePaste where
  w : Workspace
  modulesUsed : List ModuleRef
  given : List (ModuleRef × IopModule)

-- The next source module. `forms` are the forms of the source develop.
def mergePasteStep (inst : Installation) (forms : List MasksForm) (s : MergePaste)
    (modSrc : IopModule) : MergePaste :=
  let r := dtHistoryMergeModuleIntoHistory inst s.w (some forms) modSrc s.modulesUsed false
  { w := r.w
    modulesUsed := r.modulesUsed
    given := s.given ++ (r.module.map fun m => (m, modSrc)).toList }

/-- The module found by name, if any, has not been given to an earlier source module. -/
def NameNotGiven (s : MergePaste) (modSrc : IopModule) : Prop :=
  ∀ m ∈ moduleByName s.w.dev modSrc s.modulesUsed, m ∉ s.given.map Prod.fst

/-- What every paste keeps up. -/
structure PasteReached (s : MergePaste) : Prop where
  fresh : s.w.Fresh
  mem : ∀ p ∈ s.given, p.1 ∈ s.w.dev.iop
  op_eq : ∀ p ∈ s.given, (s.w.dev.mods p.1).op = p.2.op
  inHistory : ∀ p ∈ s.given, ∃ h ∈ s.w.dev.history, h.module = p.1
  active : s.given ≠ [] → s.w.dev.active = s.w.dev.history
  name : ∀ p ∈ s.given, ∀ h, lastFor HistoryItem.module p.1 s.w.dev.active = some h →
    (s.w.dev.mods p.1).multiName = h.multiName

/-- Each source module so far is in a module of its own and active there. -/
structure OwnModules (s : MergePaste) : Prop where
  distinct : (s.given.map Prod.fst).Nodup
  holds : ∀ p ∈ s.given, Holds s.w.dev p.1 p.2

section Paste

variable {forms : List MasksForm} {s s' : MergePaste}

/-- What one step does: the source module goes into the module found by name, or the one of an
unused operation, or a new one. -/
structure PasteStep (s s' : MergePaste) (modSrc : IopModule) (m : ModuleRef) : Prop where
  merged : ∃ pre item, MergedAt s.w modSrc s'.w m pre item
  given : s'.given = s.given ++ [(m, modSrc)]
  used : s'.modulesUsed = s.modulesUsed ++ (moduleByName s.w.dev modSrc s.modulesUsed).toList
  found : moduleByName s.w.dev modSrc s.modulesUsed = some m ∨
    moduleByName s.w.dev modSrc s.modulesUsed = none ∧
      (m ∈ s.w.dev.iop ∧ searchHistoryByOp s.w.dev modSrc = false ∨
        m ∉ s.w.dev.iop ∧ searchHistoryByOp s.w.dev modSrc = true)

theorem mergePasteStep_spec (forms : List MasksForm) (hw : s.w.Fresh)
    (hsrc : Mergeable inst s.w.dev modSrc) :
    ∃ m, PasteStep s (mergePasteStep inst forms s modSrc) modSrc m := by
  obtain ⟨placed, m, hmodule, hresult, hplaced, hwhere⟩ :=
    merge_placedAt hw hsrc.base hsrc.loads (some forms) s.modulesUsed
  obtain ⟨pre, item, hmerged⟩ := hplaced.mergedAt (some forms)
  rw [← hresult] at hmerged
  refine ⟨m, ⟨pre, item, hmerged⟩, ?_, merge_modulesUsed hsrc.multiple s.w _ _,
    hwhere.resolve_left fun hone => ?_⟩
  · rw [mergePasteStep, hmodule]
    rfl
  · rw [hsrc.multiple] at hone
    cases hone.2

theorem PasteStep.mem_given (h : PasteStep s s' modSrc m) {p : ModuleRef × IopModule} :
    p ∈ s'.given ↔ p ∈ s.given ∨ p = (m, modSrc) := by
  rw [h.given, mem_append, mem_singleton]

theorem PasteStep.mergeable (h : PasteStep s s' modSrc m) {src : IopModule}
    (hsrc : Mergeable inst s.w.dev src) : Mergeable inst s'.w.dev src := by
  obtain ⟨pre, item, hmerged⟩ := h.merged
  obtain ⟨n, hn, hop⟩ := hsrc.base
  exact ⟨hsrc.multiple, hsrc.loads, n, hmerged.subset n hn, (hmerged.op_eq n hn).trans hop⟩

theorem PasteStep.mergeable_rest (h : PasteStep s s' modSrc m) {sources : List IopModule}
    (hsources : ∀ src ∈ modSrc :: sources, Mergeable inst s.w.dev src) :
    ∀ src ∈ sources, Mergeable inst s'.w.dev src :=
  fun src hsrc => h.mergeable (hsources src (mem_cons_of_mem _ hsrc))

theorem MergedAt.inHistory {pre : List (HistoryItem ModuleRef)} {item : HistoryItem ModuleRef}
    {n : ModuleRef} (h : MergedAt w modSrc r m pre item)
    (hactive : w.dev.active = w.dev.history) (hn : ∃ x ∈ w.dev.history, x.module = n) :
    ∃ x ∈ r.dev.history, x.module = n := by
  by_cases hne : n = m
  · exact ⟨item, by simp [h.history_eq], h.module_eq.trans hne.symm⟩
  · cases hlast : lastFor module n r.dev.active with
    | some x =>
      have hmem := mem_of_lastFor module hlast
      exact ⟨x, h.active ▸ hmem.1, hmem.2⟩
    | none =>
      rw [h.other hactive hne, lastFor_eq_none_iff] at hlast
      obtain ⟨x, hx, hmodule⟩ := hn
      exact absurd hmodule (hlast x (hactive ▸ hx))

theorem PasteStep.not_given (h : PasteStep s s' modSrc m) (hs : PasteReached s)
    (hnone : moduleByName s.w.dev modSrc s.modulesUsed = none) : m ∉ s.given.map Prod.fst := by
  intro hgiven
  obtain ⟨p, hp, rfl⟩ := mem_map.mp hgiven
  obtain ⟨pre, item, hmerged⟩ := h.merged
  have hmem := hs.mem p hp
  rcases h.found with hname | ⟨-, ⟨-, hhistory⟩ | ⟨hnew, -⟩⟩
  · cases hnone.symm.trans hname
  · obtain ⟨x, hx, hmodule⟩ := hs.inHistory p hp
    have hop : (s.w.dev.mods x.module).op = modSrc.op := by
      rw [hmodule, ← hmerged.op_eq p.1 hmem, hmerged.op_self]
    have hsearch : searchHistoryByOp s.w.dev modSrc = true :=
      any_eq_true.mpr ⟨x, hx, beq_iff_eq.mpr hop⟩
    rw [hhistory] at hsearch
    cases hsearch
  · exact hnew hmem

theorem PasteStep.distinct_iff (h : PasteStep s s' modSrc m) (hs : PasteReached s) :
    m ∉ s.given.map Prod.fst ↔ NameNotGiven s modSrc := by
  rw [NameNotGiven]
  rcases h.found with hname | ⟨hnone, -⟩
  · rw [hname]
    simp
  · rw [hnone]
    exact iff_of_true (h.not_given hs hnone) fun _ h => absurd h (by simp)

theorem PasteStep.reached (h : PasteStep s s' modSrc m) (hs : PasteReached s) :
    PasteReached s' := by
  obtain ⟨pre, item, hmerged⟩ := h.merged
  have hcases := fun p => (@PasteStep.mem_given m modSrc s s' h p).mp
  exact
    { fresh := hmerged.fresh
      mem := fun p hp => by
        rcases hcases p hp with hold | rfl
        · exact hmerged.subset _ (hs.mem p hold)
        · exact hmerged.mem
      op_eq := fun p hp => by
        rcases hcases p hp with hold | rfl
        · exact (hmerged.op_eq _ (hs.mem p hold)).trans (hs.op_eq p hold)
        · exact hmerged.op_self
      inHistory := fun p hp => by
        rcases hcases p hp with hold | rfl
        · exact hmerged.inHistory (hs.active (ne_nil_of_mem hold)) (hs.inHistory p hold)
        · exact ⟨item, by simp [hmerged.history_eq], hmerged.module_eq⟩
      active := fun _ => hmerged.active
      name := fun p hp x hlast => by
        rcases hcases p hp with hold | rfl
        · exact hmerged.name (hmerged.subset _ (hs.mem p hold)) hlast
        · exact hmerged.name hmerged.mem hlast }

theorem OwnModules.step (hown : OwnModules s) (hs : PasteReached s) (h : PasteStep s s' modSrc m)
    (hnew : m ∉ s.given.map Prod.fst) : OwnModules s' where
  distinct := by
    rw [h.given, map_append, nodup_append]
    refine ⟨hown.distinct, nodup_singleton m, fun n hn k hk => ?_⟩
    intro heq
    rw [heq, mem_singleton.mp hk] at hn
    exact hnew hn
  holds p hp := by
    obtain ⟨pre, item, hmerged⟩ := h.merged
    rcases h.mem_given.mp hp with hold | rfl
    · have hne : p.1 ≠ m := fun heq => hnew (heq ▸ mem_map_of_mem hold)
      rw [Holds, hmerged.other (hs.active (ne_nil_of_mem hold)) hne]
      exact hown.holds p hold
    · exact hmerged.holds

theorem given_isPrefix (inst : Installation) (forms : List MasksForm) (s : MergePaste)
    (sources : List IopModule) :
    s.given <+: (sources.foldl (mergePasteStep inst forms) s).given := by
  induction sources generalizing s with
  | nil => exact prefix_rfl
  | cons modSrc sources ih =>
    have hstep : s.given <+: (mergePasteStep inst forms s modSrc).given := prefix_append _ _
    exact hstep.trans (ih _)

theorem given_sources (hs : PasteReached s) (sources : List IopModule)
    (hsources : ∀ src ∈ sources, Mergeable inst s.w.dev src) :
    (sources.foldl (mergePasteStep inst forms) s).given.map Prod.snd =
      s.given.map Prod.snd ++ sources := by
  induction sources generalizing s with
  | nil => exact (append_nil _).symm
  | cons modSrc sources ih =>
    obtain ⟨m, hstep⟩ := mergePasteStep_spec forms hs.fresh (hsources modSrc mem_cons_self)
    rw [foldl_cons, ih (hstep.reached hs) (hstep.mergeable_rest hsources), hstep.given]
    simp

/-- The source modules end in modules of their own exactly if no step finds a module by name that
was given before. -/
theorem ownModules_iff (hs : PasteReached s) (hown : OwnModules s) (sources : List IopModule)
    (hsources : ∀ src ∈ sources, Mergeable inst s.w.dev src) :
    (OwnModules (sources.foldl (mergePasteStep inst forms) s) ↔
        AllSteps (mergePasteStep inst forms) NameNotGiven s sources) ∧
      (((sources.foldl (mergePasteStep inst forms) s).given.map Prod.fst).Nodup →
        OwnModules (sources.foldl (mergePasteStep inst forms) s)) := by
  induction sources generalizing s with
  | nil => exact ⟨iff_of_true hown trivial, fun _ => hown⟩
  | cons modSrc sources ih =>
    obtain ⟨m, hstep⟩ := mergePasteStep_spec forms hs.fresh (hsources modSrc mem_cons_self)
    have hrest := hstep.mergeable_rest hsources
    by_cases hnew : m ∉ s.given.map Prod.fst
    · obtain ⟨hiff, hdistinct⟩ := ih (hstep.reached hs) (hown.step hs hstep hnew) hrest
      exact ⟨hiff.trans (and_iff_right ((hstep.distinct_iff hs).mp hnew)).symm, hdistinct⟩
    · -- a module given twice stays on the list twice
      have hnot : ¬ ((sources.foldl (mergePasteStep inst forms)
          (mergePasteStep inst forms s modSrc)).given.map Prod.fst).Nodup := by
        intro hnodup
        have hnodup' := hnodup.sublist ((given_isPrefix inst forms _ sources).sublist.map Prod.fst)
        rw [hstep.given, map_append, nodup_append] at hnodup'
        exact hnew fun hmem => hnodup'.2.2 m hmem m (mem_singleton_self m) rfl
      refine ⟨iff_of_false (fun h => hnot h.distinct) fun h => ?_, fun h => absurd h hnot⟩
      exact hnew ((hstep.distinct_iff hs).mpr h.1)

def moduleName (module : IopModule) : String × String := (module.op, module.multiName)

theorem PasteReached.moduleName_eq (hs : PasteReached s) (hown : OwnModules s)
    {p : ModuleRef × IopModule} (hp : p ∈ s.given) :
    moduleName (s.w.dev.mods p.1) = moduleName p.2 := by
  obtain ⟨h, hlast, hsettings⟩ := map_eq_some_iff.mp (hown.holds p hp)
  have hname : (s.w.dev.mods p.1).multiName = p.2.multiName :=
    (hs.name p hp h hlast).trans (congrArg Prod.snd hsettings)
  rw [moduleName, hs.op_eq p hp, hname]
  rfl

/-- Source modules that differ in operation or name pairwise never meet in one module. -/
theorem nameNotGiven_of_distinct_names (hs : PasteReached s) (hown : OwnModules s)
    (sources : List IopModule) (hsources : ∀ src ∈ sources, Mergeable inst s.w.dev src)
    (hnames : ((s.given.map Prod.snd ++ sources).map moduleName).Nodup) :
    AllSteps (mergePasteStep inst forms) NameNotGiven s sources := by
  induction sources generalizing s with
  | nil => trivial
  | cons modSrc sources ih =>
    have hguard : NameNotGiven s modSrc := by
      intro m hm hgiven
      obtain ⟨p, hp, rfl⟩ := mem_map.mp hgiven
      obtain ⟨-, hop, hname⟩ := moduleByName_spec hm
      have hsame : moduleName p.2 = moduleName modSrc := by
        rw [← hs.moduleName_eq hown hp, moduleName, hop, hname]
        rfl
      rw [map_append, nodup_append] at hnames
      exact hnames.2.2 _ (mem_map_of_mem (mem_map_of_mem hp)) _
        (mem_map_of_mem mem_cons_self) hsame
    obtain ⟨m, hstep⟩ := mergePasteStep_spec forms hs.fresh (hsources modSrc mem_cons_self)
    have hnew := (hstep.distinct_iff hs).mpr hguard
    refine ⟨hguard, ih (hstep.reached hs) (hown.step hs hstep hnew)
      (hstep.mergeable_rest hsources) ?_⟩
    have hgiven : (s.given ++ [(m, modSrc)]).map Prod.snd ++ sources =
        s.given.map Prod.snd ++ modSrc :: sources := by simp
    rw [hstep.given, hgiven]
    exact hnames

end Paste

/-- Each source module was put into a module of its own, whose last active params are those of the
source. -/
def EachInOwnModule (final : MergePaste) (sources : List IopModule) : Prop :=
  final.given.map Prod.snd = sources ∧ (final.given.map Prod.fst).Nodup ∧
    ∀ p ∈ final.given,
      (lastFor HistoryItem.module p.1 final.w.dev.active).map HistoryItem.params = some p.2.params

theorem pasteReached_start (hw : w.Fresh) : PasteReached ⟨w, [], []⟩ where
  fresh := hw
  mem _ hp := absurd hp not_mem_nil
  op_eq _ hp := absurd hp not_mem_nil
  inHistory _ hp := absurd hp not_mem_nil
  active h := absurd rfl h
  name _ hp := absurd hp not_mem_nil

theorem ownModules_start (w : Workspace) : OwnModules ⟨w, [], []⟩ where
  distinct := nodup_nil
  holds _ hp := absurd hp not_mem_nil

variable {sources : List IopModule}

theorem OwnModules.eachInOwnModule {final : MergePaste} (hown : OwnModules final)
    (hsources : final.given.map Prod.snd = sources) :
    EachInOwnModule final sources := by
  refine ⟨hsources, hown.distinct, fun p hp => ?_⟩
  obtain ⟨h, hlast, hsettings⟩ := map_eq_some_iff.mp (hown.holds p hp)
  rw [hlast]
  exact congrArg some (congrArg Prod.fst hsettings)

/-! ## Which names fit -/

def HasItem (dev : Develop) (op : String) : Prop :=
  ∃ h ∈ dev.history, (dev.mods h.module).op = op

instance (dev : Develop) (op : String) : Decidable (HasItem dev op) :=
  List.decidableBEx _ dev.history

/-- The destination as it is loaded for a paste: no item is above `history_end`, the items are of
loaded modules, and a module has the name of its last item. "there should be only one instance of
this iop (since is un-used)". -/
structure PasteDestination (dev : Develop) : Prop where
  atTop : dev.active = dev.history
  modules : ∀ h ∈ dev.history, h.module ∈ dev.iop
  named : ∀ m ∈ dev.iop, ∀ h ∈ lastFor HistoryItem.module m dev.history,
    (dev.mods m).multiName = h.multiName
  single : ∀ m ∈ dev.iop, ∀ n ∈ dev.iop, (dev.mods m).op = (dev.mods n).op →
    ¬ HasItem dev (dev.mods m).op → m = n

-- The modules of an operation and name that are not on `modules_used`.
def modulesCalled (dev : Develop) (used : List ModuleRef) (name : String × String) :
    Finset ModuleRef :=
  dev.iop.toFinset.filter fun m => moduleName (dev.mods m) = name ∧ m ∉ used

/-- They keep their name: the operation has an item, or its first source module has this name. If
not, the first one takes the only module of the operation and renames it. -/
def KeepsName (dev : Develop) (names : List (String × String)) (name : String × String) : Prop :=
  HasItem dev name.1 ∨ names.find? (·.1 == name.1) = some name

instance (dev : Develop) (names : List (String × String)) (name : String × String) :
    Decidable (KeepsName dev names name) :=
  inferInstanceAs (Decidable (_ ∨ _))

-- How many source modules of the name find modules of their own.
def roomFor (dev : Develop) (used : List ModuleRef) (names : List (String × String))
    (name : String × String) : Nat :=
  1 + if KeepsName dev names name then (modulesCalled dev used name).card else 0

/-- At most one source module more than there are modules of the name: the further one gets the
un-used module or a new one, which is not put on `modules_used`. -/
def NamesFit (dev : Develop) (names : List (String × String)) : Prop :=
  ∀ name ∈ names, names.count name ≤ roomFor dev [] names name

instance (dev : Develop) (names : List (String × String)) : Decidable (NamesFit dev names) :=
  List.decidableBAll _ names

section Names

variable {inst : Installation} {forms : List MasksForm} {s s' : MergePaste} {modSrc : IopModule}
variable {name : String × String} {names : List (String × String)} {dev : Develop}
  {used : List ModuleRef}

theorem mem_modulesCalled : m ∈ modulesCalled dev used name ↔
    m ∈ dev.iop ∧ moduleName (dev.mods m) = name ∧ m ∉ used := by
  rw [modulesCalled, Finset.mem_filter, List.mem_toFinset]

theorem moduleByName_cases (dev : Develop) (modSrc : IopModule) (used : List ModuleRef) :
    (∃ m ∈ modulesCalled dev used (moduleName modSrc), moduleByName dev modSrc used = some m) ∨
      modulesCalled dev used (moduleName modSrc) = ∅ ∧ moduleByName dev modSrc used = none := by
  have hiff : ∀ m, ((dev.mods m).op == modSrc.op && (dev.mods m).multiName == modSrc.multiName
      && !used.contains m) = true ↔ moduleName (dev.mods m) = moduleName modSrc ∧ m ∉ used := by
    intro m
    simp [moduleName]
  cases hfound : moduleByName dev modSrc used with
  | some m =>
    have hname := find?_some (show dev.iop.find? _ = some m from hfound)
    exact .inl ⟨m, mem_modulesCalled.mpr ⟨mem_of_find?_eq_some hfound, (hiff m).mp hname⟩, rfl⟩
  | none =>
    refine .inr ⟨Finset.eq_empty_of_forall_notMem fun m hm => ?_, rfl⟩
    obtain ⟨hmem, hname⟩ := mem_modulesCalled.mp hm
    exact find?_eq_none.mp hfound m hmem ((hiff m).mpr hname)

theorem searchHistoryByOp_iff : searchHistoryByOp dev modSrc = true ↔ HasItem dev modSrc.op := by
  simp [searchHistoryByOp, HasItem]

section Destination

variable {pre : List (HistoryItem ModuleRef)} {item : HistoryItem ModuleRef}
variable (h : MergedAt w modSrc r m pre item) (hdest : PasteDestination w.dev)
include h hdest

theorem MergedAt.mem_history {x : HistoryItem ModuleRef} (hx : x ∈ r.dev.history) :
    x ∈ w.dev.history ∨ x.module = m := by
  rw [h.history_eq, mem_append, mem_singleton] at hx
  rcases hx with hx | rfl
  · rcases h.below hdest.atTop with rfl | ⟨top, heq, -⟩
    · exact .inl hx
    · exact .inl (heq ▸ mem_append_left _ hx)
  · exact .inr h.module_eq

theorem MergedAt.hasItem_iff (op : String) :
    HasItem r.dev op ↔ HasItem w.dev op ∨ modSrc.op = op := by
  constructor
  · rintro ⟨x, hx, rfl⟩
    rcases h.mem_history hdest hx with hold | hself
    · exact .inl ⟨x, hold, (h.op_eq _ (hdest.modules x hold)).symm⟩
    · rw [hself, h.op_self]
      exact .inr rfl
  · rintro (⟨x, hx, rfl⟩ | rfl)
    · obtain ⟨y, hy, hmodule⟩ := h.inHistory hdest.atTop ⟨x, hx, rfl⟩
      exact ⟨y, hy, by rw [hmodule, h.op_eq _ (hdest.modules x hx)]⟩
    · exact ⟨item, by simp [h.history_eq], by rw [h.module_eq, h.op_self]⟩

theorem MergedAt.moduleName_eq {n : ModuleRef} (hn : n ∈ w.dev.iop) (hne : n ≠ m) :
    moduleName (r.dev.mods n) = moduleName (w.dev.mods n) := by
  have hname : (r.dev.mods n).multiName = (w.dev.mods n).multiName := by
    rw [h.multiName n (h.subset n hn), h.other hdest.atTop hne, hdest.atTop]
    cases hlast : lastFor module n w.dev.history with
    | none => rfl
    | some x => exact (hdest.named n hn x hlast).symm
  exact Prod.ext (h.op_eq n hn) hname

theorem MergedAt.pasteDestination : PasteDestination r.dev where
  atTop := h.active
  modules x hx := by
    rcases h.mem_history hdest hx with hold | hself
    · exact h.subset _ (hdest.modules x hold)
    · exact hself ▸ h.mem
  named n hn x hx := h.name hn (h.active ▸ hx)
  single n hn k hk hop hunused := by
    rw [h.hasItem_iff hdest, not_or] at hunused
    -- an operation without items is not the one of the source module
    have hold : ∀ j ∈ r.dev.iop, (r.dev.mods n).op = (r.dev.mods j).op → j ∈ w.dev.iop := by
      intro j hj hjop
      rcases h.only j hj with hmem | rfl
      · exact hmem
      · exact absurd (h.op_self.symm.trans hjop.symm) hunused.2
    have hn' := hold n hn rfl
    have hk' := hold k hk hop
    rw [h.op_eq n hn'] at hop hunused
    exact hdest.single n hn' k hk' (hop.trans (h.op_eq k hk')) hunused.1

end Destination

/-- A module that was given but is not on `modules_used` is the only one left of its name. -/
structure PasteNames (s : MergePaste) : Prop where
  reached : PasteReached s
  dest : PasteDestination s.w.dev
  used : ∀ m ∈ s.modulesUsed, m ∈ s.given.map Prod.fst
  alone : ∀ m ∈ s.given.map Prod.fst, ∀ name, m ∈ modulesCalled s.w.dev s.modulesUsed name →
    modulesCalled s.w.dev s.modulesUsed name = {m}

-- A source module of the name would overwrite what another one has put there.
def Taken (s : MergePaste) (name : String × String) : Prop :=
  ∃ m ∈ s.given.map Prod.fst, m ∈ modulesCalled s.w.dev s.modulesUsed name

theorem PasteNames.nameNotGiven_iff (hs : PasteNames s) :
    NameNotGiven s modSrc ↔ ¬ Taken s (moduleName modSrc) := by
  rcases moduleByName_cases s.w.dev modSrc s.modulesUsed with ⟨m, hm, hfound⟩ | ⟨hnone, hfound⟩
  · rw [NameNotGiven, hfound]
    refine ⟨fun hnot => ?_, fun hnot k hk hgiven => hnot ⟨m, ?_, hm⟩⟩
    · rintro ⟨n, hgiven, hn⟩
      rw [hs.alone n hgiven _ hn, Finset.mem_singleton] at hm
      exact hnot m rfl (hm ▸ hgiven)
    · obtain rfl := Option.some.inj hk
      exact hgiven
  · rw [NameNotGiven, hfound, Taken, hnone]
    simp

section Step

variable (hs : PasteNames s) (hstep : PasteStep s s' modSrc m)
include hstep

theorem PasteStep.mem_modules {k : ModuleRef} :
    k ∈ s'.given.map Prod.fst ↔ k ∈ s.given.map Prod.fst ∨ k = m := by
  rw [hstep.given, map_append, mem_append]
  simp

theorem PasteStep.moduleName_self : moduleName (s'.w.dev.mods m) = moduleName modSrc := by
  obtain ⟨pre, item, hmerged⟩ := hstep.merged
  obtain ⟨x, hlast, hsettings⟩ := map_eq_some_iff.mp hmerged.holds
  exact Prod.ext hmerged.op_self
    ((hmerged.name hmerged.mem hlast).trans (congrArg Prod.snd hsettings))

include hs

theorem PasteStep.hasItem_iff (op : String) :
    HasItem s'.w.dev op ↔ HasItem s.w.dev op ∨ modSrc.op = op := by
  obtain ⟨pre, item, hmerged⟩ := hstep.merged
  exact hmerged.hasItem_iff hs.dest op

theorem PasteStep.called_of_ne_module {n : ModuleRef} (hne : n ≠ m) :
    n ∈ modulesCalled s'.w.dev s'.modulesUsed name ↔
      n ∈ modulesCalled s.w.dev s.modulesUsed name := by
  obtain ⟨pre, item, hmerged⟩ := hstep.merged
  have hiop : n ∈ s'.w.dev.iop ↔ n ∈ s.w.dev.iop :=
    ⟨fun hn => (hmerged.only n hn).resolve_right hne, hmerged.subset n⟩
  have hused : n ∈ s'.modulesUsed ↔ n ∈ s.modulesUsed := by
    rw [hstep.used]
    rcases hstep.found with hfound | ⟨hfound, -⟩ <;> simp [hfound, hne]
  rw [mem_modulesCalled, mem_modulesCalled, hiop, hused]
  exact and_congr_right fun hn => by rw [hmerged.moduleName_eq hs.dest hn hne]

theorem PasteStep.called_of_ne (hname : name ≠ moduleName modSrc) :
    modulesCalled s'.w.dev s'.modulesUsed name =
      (modulesCalled s.w.dev s.modulesUsed name).erase m := by
  ext n
  rw [Finset.mem_erase]
  by_cases hne : n = m
  · subst hne
    rw [mem_modulesCalled, hstep.moduleName_self]
    exact iff_of_false (fun h => hname h.2.1.symm) fun h => h.1 rfl
  · rw [hstep.called_of_ne_module hs hne, and_iff_right hne]

/-- The name of the source module: its modules but the one found, which goes on `modules_used`, or
the module that was taken without being found. -/
theorem PasteStep.called_self :
    (m ∈ modulesCalled s.w.dev s.modulesUsed (moduleName modSrc) ∧
        modulesCalled s'.w.dev s'.modulesUsed (moduleName modSrc) =
          (modulesCalled s.w.dev s.modulesUsed (moduleName modSrc)).erase m) ∨
      (modulesCalled s.w.dev s.modulesUsed (moduleName modSrc) = ∅ ∧
        m ∉ s.given.map Prod.fst ∧
        modulesCalled s'.w.dev s'.modulesUsed (moduleName modSrc) = {m}) := by
  obtain ⟨pre, item, hmerged⟩ := hstep.merged
  rcases moduleByName_cases s.w.dev modSrc s.modulesUsed with ⟨n, hn, hfound⟩ | ⟨hnone, hfound⟩
  · obtain rfl : n = m := by
      rcases hstep.found with heq | ⟨heq, -⟩
      · exact some.inj (hfound.symm.trans heq)
      · cases hfound.symm.trans heq
    refine .inl ⟨hn, ?_⟩
    ext k
    rw [Finset.mem_erase]
    by_cases hne : k = n
    · have hused : n ∈ s'.modulesUsed := by simp [hstep.used, hfound]
      rw [hne, mem_modulesCalled]
      exact iff_of_false (fun h => h.2.2 hused) fun h => h.1 rfl
    · rw [hstep.called_of_ne_module hs hne, and_iff_right hne]
  · have hnew := hstep.not_given hs.reached hfound
    refine .inr ⟨hnone, hnew, ?_⟩
    ext k
    rw [Finset.mem_singleton]
    by_cases hne : k = m
    · have hused : m ∉ s'.modulesUsed := by
        simpa [hstep.used, hfound] using mt (hs.used m) hnew
      rw [hne, mem_modulesCalled]
      exact iff_of_true ⟨hmerged.mem, hstep.moduleName_self, hused⟩ rfl
    · rw [hstep.called_of_ne_module hs hne, hnone]
      exact iff_of_false (Finset.notMem_empty k) hne

theorem PasteStep.pasteNames : PasteNames s' := by
  obtain ⟨pre, item, hmerged⟩ := hstep.merged
  refine ⟨hstep.reached hs.reached, hmerged.pasteDestination hs.dest, fun k hk => ?_,
    fun k hk name hcalled => ?_⟩
  · rw [hstep.mem_modules]
    rw [hstep.used, mem_append] at hk
    refine hk.imp (hs.used k) fun hk => ?_
    rcases hstep.found with hfound | ⟨hfound, -⟩
    · simpa [hfound] using hk
    · simp [hfound] at hk
  · rw [hstep.mem_modules] at hk
    by_cases hname : name = moduleName modSrc
    · subst hname
      rcases hstep.called_self hs with ⟨hm, heq⟩ | ⟨-, -, heq⟩
      · -- the module found by its name would have been given before
        rw [heq, Finset.mem_erase] at hcalled
        rw [hs.alone k (hk.resolve_right hcalled.1) _ hcalled.2, Finset.mem_singleton] at hm
        exact absurd hm.symm hcalled.1
      · rw [heq] at hcalled ⊢
        rw [Finset.mem_singleton.mp hcalled]
    · rw [hstep.called_of_ne hs hname] at hcalled ⊢
      obtain ⟨hne, hcalled⟩ := Finset.mem_erase.mp hcalled
      rw [hs.alone k (hk.resolve_right hne) name hcalled]
      exact Finset.erase_eq_of_notMem (by simpa using Ne.symm hne)

-- A module of another name that takes the source module is the un-used one.
theorem PasteStep.renamed (hname : name ≠ moduleName modSrc)
    (hm : m ∈ modulesCalled s.w.dev s.modulesUsed name) :
    m ∉ s.given.map Prod.fst ∧ name.1 = modSrc.op ∧ ¬ HasItem s.w.dev modSrc.op := by
  obtain ⟨pre, item, hmerged⟩ := hstep.merged
  obtain ⟨hmem, rfl, -⟩ := mem_modulesCalled.mp hm
  rcases hstep.found with hfound | ⟨hnone, ⟨-, hunused⟩ | ⟨hnew, -⟩⟩
  · obtain ⟨-, hop, hmulti⟩ := moduleByName_spec hfound
    exact absurd (Prod.ext hop hmulti) hname
  · rw [← Bool.not_eq_true, searchHistoryByOp_iff] at hunused
    exact ⟨hstep.not_given hs.reached hnone, (hmerged.op_eq m hmem).symm.trans hmerged.op_self,
      hunused⟩
  · exact absurd hmem hnew

theorem PasteStep.taken_of_ne (hname : name ≠ moduleName modSrc) :
    Taken s' name ↔ Taken s name := by
  refine exists_congr fun k => ?_
  rw [hstep.mem_modules, hstep.called_of_ne hs hname, Finset.mem_erase]
  by_cases hne : k = m
  · subst hne
    exact iff_of_false (fun h => h.2.1 rfl) fun h => (hstep.renamed hs hname h.2).1 h.1
  · rw [or_iff_left hne, and_iff_right hne]

theorem PasteStep.roomFor_of_ne (hname : name ≠ moduleName modSrc) :
    roomFor s'.w.dev s'.modulesUsed names name =
      roomFor s.w.dev s.modulesUsed (moduleName modSrc :: names) name := by
  rw [roomFor, roomFor, hstep.called_of_ne hs hname]
  congr 1
  by_cases hop : modSrc.op = name.1
  · have hkeeps : KeepsName s'.w.dev names name := .inl ((hstep.hasItem_iff hs _).mpr (.inr hop))
    rw [if_pos hkeeps]
    have hfirst : (moduleName modSrc :: names).find? (·.1 == name.1) = some (moduleName modSrc) :=
      find?_cons_of_pos (beq_iff_eq.mpr hop)
    by_cases hitem : HasItem s.w.dev name.1
    · rw [if_pos (.inl hitem), Finset.erase_eq_of_notMem fun hm =>
        (hstep.renamed hs hname hm).2.2 (hop ▸ hitem)]
    · have hlost : ¬ KeepsName s.w.dev (moduleName modSrc :: names) name :=
        not_or.mpr ⟨hitem, fun h => hname (some.inj (hfirst.symm.trans h)).symm⟩
      rw [if_neg hlost, Finset.card_eq_zero]
      -- the source module has gone into the only module of its operation
      refine Finset.eq_empty_of_forall_notMem fun n hn => ?_
      obtain ⟨hne, hcalled⟩ := Finset.mem_erase.mp hn
      obtain ⟨hmem, rfl, -⟩ := mem_modulesCalled.mp hcalled
      obtain ⟨pre, item, hmerged⟩ := hstep.merged
      have hm : m ∈ s.w.dev.iop := by
        rcases hstep.found with hfound | ⟨-, ⟨hm, -⟩ | ⟨-, hsome⟩⟩
        · exact (moduleByName_spec hfound).1
        · exact hm
        · exact absurd (hop ▸ searchHistoryByOp_iff.mp hsome) hitem
      refine hne (hs.dest.single n hmem m hm ?_ hitem)
      rw [← hmerged.op_eq m hm, hmerged.op_self, hop]
      rfl
  · have hkeeps : KeepsName s'.w.dev names name ↔
        KeepsName s.w.dev (moduleName modSrc :: names) name := by
      rw [KeepsName, KeepsName, hstep.hasItem_iff hs, or_iff_left hop,
        find?_cons_of_neg (by simpa [moduleName] using hop)]
    rw [Finset.erase_eq_of_notMem fun hm => hop (hstep.renamed hs hname hm).2.1.symm]
    simp only [hkeeps]

-- The room for the name of the source module itself.
theorem PasteStep.roomFor_self (names : List (String × String))
    (hfree : ¬ Taken s (moduleName modSrc)) :
    (¬ Taken s' (moduleName modSrc) ∧
        roomFor s.w.dev s.modulesUsed (moduleName modSrc :: names) (moduleName modSrc) =
          roomFor s'.w.dev s'.modulesUsed names (moduleName modSrc) + 1) ∨
      (Taken s' (moduleName modSrc) ∧
        roomFor s.w.dev s.modulesUsed (moduleName modSrc :: names) (moduleName modSrc) = 1) := by
  have hkeeps : KeepsName s.w.dev (moduleName modSrc :: names) (moduleName modSrc) :=
    .inr (find?_cons_of_pos (beq_iff_eq.mpr rfl))
  rw [roomFor, if_pos hkeeps]
  rcases hstep.called_self hs with ⟨hm, hcalled⟩ | ⟨hnone, -, hcalled⟩
  · have hkeeps' : KeepsName s'.w.dev names (moduleName modSrc) :=
      .inl ((hstep.hasItem_iff hs _).mpr (.inr rfl))
    refine .inl ⟨?_, ?_⟩
    · rintro ⟨k, hk, hcall⟩
      rw [hcalled, Finset.mem_erase] at hcall
      exact hfree ⟨k, ((hstep.mem_modules).mp hk).resolve_right hcall.1, hcall.2⟩
    · rw [roomFor, if_pos hkeeps', hcalled, ← Finset.card_erase_add_one hm, Nat.add_assoc]
  · rw [hnone]
    exact .inr ⟨⟨m, (hstep.mem_modules).mpr (.inr rfl), by simp [hcalled]⟩, rfl⟩

end Step

/-- No step finds a module by name that was given before exactly if no name is taken and each name
has room for its source modules. -/
theorem PasteNames.allSteps_iff (hs : PasteNames s) (sources : List IopModule)
    (hsources : ∀ src ∈ sources, Mergeable inst s.w.dev src) :
    AllSteps (mergePasteStep inst forms) NameNotGiven s sources ↔
      ∀ name ∈ sources.map moduleName, ¬ Taken s name ∧ (sources.map moduleName).count name ≤
        roomFor s.w.dev s.modulesUsed (sources.map moduleName) name := by
  induction sources generalizing s with
  | nil => exact iff_of_true trivial (forall_mem_nil _)
  | cons modSrc sources ih =>
    obtain ⟨m, hstep⟩ := mergePasteStep_spec forms hs.reached.fresh
      (hsources modSrc mem_cons_self)
    have hrest := ih (hstep.pasteNames hs) (hstep.mergeable_rest hsources)
    show NameNotGiven s modSrc ∧ _ ↔ _
    rw [hs.nameNotGiven_iff, hrest, map_cons]
    generalize sources.map moduleName = names
    constructor
    · rintro ⟨hfree, hfits⟩ name hname
      by_cases hself : name = moduleName modSrc
      · subst hself
        refine ⟨hfree, ?_⟩
        rw [count_cons_self]
        by_cases hmem : moduleName modSrc ∈ names
        · obtain ⟨hfree', hroom⟩ := hfits _ hmem
          rcases hstep.roomFor_self hs names hfree with ⟨-, heq⟩ | ⟨htaken, -⟩
          · omega
          · exact absurd htaken hfree'
        · rw [count_eq_zero_of_not_mem hmem, roomFor]
          omega
      · obtain ⟨hfree', hroom⟩ := hfits name ((mem_cons.mp hname).resolve_left hself)
        rw [hstep.taken_of_ne hs hself] at hfree'
        rw [count_cons_of_ne (Ne.symm hself), ← hstep.roomFor_of_ne hs hself]
        exact ⟨hfree', hroom⟩
    · intro hfits
      obtain ⟨hfree, hroom⟩ := hfits _ mem_cons_self
      refine ⟨hfree, fun name hname => ?_⟩
      by_cases hself : name = moduleName modSrc
      · subst hself
        rw [count_cons_self] at hroom
        have hpos := count_pos_iff.mpr hname
        rcases hstep.roomFor_self hs names hfree with ⟨hfree', heq⟩ | ⟨-, heq⟩
        · exact ⟨hfree', by omega⟩
        · omega
      · obtain ⟨hfree', hroom'⟩ := hfits name (mem_cons_of_mem _ hname)
        rw [count_cons_of_ne (Ne.symm hself), ← hstep.roomFor_of_ne hs hself] at hroom'
        exact ⟨fun h => hfree' ((hstep.taken_of_ne hs hself).mp h), hroom'⟩

end Names

/-- It is enough that no two source modules have the same operation and name. -/
theorem mergePaste_own_module_of_names {inst : Installation} {forms : List MasksForm}
    (hw : w.Fresh) (hsources : ∀ src ∈ sources, Mergeable inst w.dev src)
    (hnames : (sources.map moduleName).Nodup) :
    EachInOwnModule (sources.foldl (mergePasteStep inst forms) ⟨w, [], []⟩) sources := by
  have hs := pasteReached_start hw
  have hown := ownModules_start w
  have hsteps := @nameNotGiven_of_distinct_names inst forms _ hs hown sources hsources hnames
  exact ((ownModules_iff hs hown sources hsources).1.mpr hsteps).eachInOwnModule
    (given_sources hs sources hsources)

def sampleInstance (multiPriority : Int) (multiName : String) (params : Blob) : IopModule :=
  { sampleModule 2 with
    multiPriority := multiPriority
    multiName := multiName
    params := params
    enabled := true }

theorem mergeable_sampleInstance (multiPriority : Int) (multiName : String) (params : Blob) :
    Mergeable sampleInstallation sampleWorkspace.dev
      (sampleInstance multiPriority multiName params) :=
  ⟨rfl, rfl, 2, by decide, rfl⟩

theorem pasteDestination_sampleEdited : PasteDestination sampleEdited.dev where
  atTop := rfl
  modules := by decide
  named := by decide
  single := by decide

theorem mergePaste_own_module_sky_sea :
    let sources := [sampleInstance 0 "sky" [1], sampleInstance 0 "sea" [2]]
    EachInOwnModule
      (sources.foldl (mergePasteStep sampleInstallation []) ⟨sampleWorkspace, [], []⟩) sources :=
  mergePaste_own_module_of_names (by decide) (by simp [mergeable_sampleInstance]) (by decide)

end DTLite
