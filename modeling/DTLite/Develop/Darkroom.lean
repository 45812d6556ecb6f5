import DTLite.Develop.Pixelpipe

/-!
# Edits, pops and pipe runs

The darkroom raises flags on its pipe as the history changes, and the pipe answers them when it
runs.  Every one of the three pipes gets the same flags, so one of them is modelled.
-/

namespace DTLite

open Reasoning PipeChanged

structure Darkroom where
  dev : Develop
  pipe : Pixelpipe

-- "check if the order of modules has changed": the two lists are compared place by place
def devIopChanged (mods : ModuleRef → IopModule) (iopOld iop : List ModuleRef) : Bool :=
  iopOld.length != iop.length ||
    (iop.zip iopOld).any fun p => (mods p.1).iopOrder != (mods p.2).iopOrder

-- With the flags it raises
def dtDevPopHistoryItems (dev : Develop) (cnt : Nat) : Develop × PipeChanged :=
  let popped := dtDevPopHistoryItemsExt dev cnt
  (popped, if devIopChanged popped.mods dev.iop popped.iop then { remove := true }
    else { synch := true })

inductive DarkroomEvent where
  /-- `dt_dev_pop_history_items` -/
  | popItems (cnt : Nat)
  /-- The user changes a module, then `dt_dev_add_history_item` or, with the forms,
  `dt_dev_add_masks_history_item` is called for it. -/
  | addItem (m : ModuleRef) (params blendParams : Blob) (enabled enable includeMasks : Bool)
  | requestFocus
  /-- `dt_dev_pixelpipe_change` -/
  | pipeRun

section Runs

variable (commitEnabled : ModuleRef → Blob → Bool)

def darkroomStep (s : Darkroom) : DarkroomEvent → Darkroom
  | .popItems cnt =>
      let r := dtDevPopHistoryItems s.dev cnt
      { dev := r.1, pipe := { s.pipe with changed := s.pipe.changed.raise r.2 } }
  | .addItem m params blendParams enabled enable includeMasks =>
      let dev := userChange s.dev m params blendParams enabled
      let r := devAddHistoryItemExt dev m enable false includeMasks
      { dev := r.1, pipe := { s.pipe with changed := s.pipe.changed.raise r.2 } }
  | .requestFocus => { s with dev := { s.dev with focusHash := s.dev.focusHash + 1 } }
  | .pipeRun =>
      let r := dtDevPixelpipeChange commitEnabled s.dev s.pipe
      { dev := r.1, pipe := r.2 }

/-- A pipe run now leaves every piece as a full synchronisation would. -/
def ChangeSynchs (s : Darkroom) : Prop :=
  let r := dtDevPixelpipeChange commitEnabled s.dev s.pipe
  r.2.nodes.map Piece.shown =
    (dtDevPixelpipeSynchAll commitEnabled r.1 r.2.nodes).2.map Piece.shown

/-- Committing the top item is enough: a full run is due, or an item is pushed, or the items kept
above `history_end` say of the other pieces what the active ones say. -/
def TopSuffices (s : Darkroom) : DarkroomEvent → Prop
  | .addItem m params blendParams enabled _ includeMasks =>
      s.pipe.changed.synch = true ∨ s.pipe.changed.remove = true ∨
      pushesItem (userChange s.dev m params blendParams enabled) m includeMasks = true ∨
      ∀ piece ∈ s.pipe.nodes, piece.module ≠ m →
        shownAfter commitEnabled (keptHistory s.dev) s.dev.mods piece.module =
          shownAfter commitEnabled s.dev.active s.dev.mods piece.module
  | _ => True

-- only the top item is due, so no item stands above it
def TopIsLast (s : Darkroom) : Prop :=
  s.pipe.changed.topChanged = true → s.pipe.changed.synch = false →
    s.pipe.changed.remove = false → s.dev.historyEnd = s.dev.history.length

variable (s : Darkroom)

theorem changeSynchs_iff_synched :
    ChangeSynchs commitEnabled s ↔
      Synched commitEnabled (dtDevPixelpipeChange commitEnabled s.dev s.pipe).1
        (dtDevPixelpipeChange commitEnabled s.dev s.pipe).2.nodes :=
  synched_iff_synchAll ..

theorem changeSynchs_of_all {s : Darkroom}
    (hall : s.pipe.changed.synch = true ∨ s.pipe.changed.remove = true) :
    ChangeSynchs commitEnabled s :=
  (changeSynchs_iff_synched commitEnabled s).mpr (change_synched_of_all commitEnabled _ _ hall)

-- what a piece becomes in a run that is not a full one
def Piece.topSynch (s : Darkroom) (piece : Piece) : Piece :=
  if s.pipe.changed.topChanged then
    (topItem s.dev).elim piece fun hist => piece.synch commitEnabled hist
  else piece

theorem changeSynchs_iff_of_notDue {s : Darkroom} (hsynch : s.pipe.changed.synch = false)
    (hremove : s.pipe.changed.remove = false) :
    ChangeSynchs commitEnabled s ↔ ∀ piece ∈ s.pipe.nodes,
      (piece.topSynch commitEnabled s).shown =
        shownAfter commitEnabled s.dev.active s.dev.mods piece.module := by
  rw [changeSynchs_iff_synched, change_eq_of_top commitEnabled _ _ hsynch hremove]
  unfold Piece.topSynch
  cases s.pipe.changed.topChanged with
  | false => rfl
  | true =>
    obtain ⟨hsame, hnodes⟩ := synchTop_spec commitEnabled s.dev s.pipe.nodes
    simp only [if_true]
    rw [hsame.synched_iff, hnodes]
    unfold Synched
    rw [List.forall_mem_map]
    apply forall₂_congr
    intro piece _
    cases topItem s.dev with
    | none => rfl
    | some h => rw [Option.elim_some, synch_module]

variable {h : HistoryItem ModuleRef}

/-- With only the top item due, the pieces of its module are in order, and the others have to be so
before the run. -/
theorem changeSynchs_iff_of_top {s : Darkroom}
    (htop : s.pipe.changed.topChanged = true) (hsynch : s.pipe.changed.synch = false)
    (hremove : s.pipe.changed.remove = false) (hitem : topItem s.dev = some h)
    (hlast : lastFor HistoryItem.module h.module s.dev.active = some h) :
    ChangeSynchs commitEnabled s ↔ ∀ piece ∈ s.pipe.nodes, piece.module ≠ h.module →
      piece.shown = shownAfter commitEnabled s.dev.active s.dev.mods piece.module := by
  rw [changeSynchs_iff_of_notDue commitEnabled hsynch hremove]
  apply forall₂_congr
  intro piece _
  rw [Piece.topSynch, if_pos htop, hitem, Option.elim_some, synch_shown]
  by_cases hmod : piece.module = h.module
  · rw [hmod]
    unfold shownAfter
    rw [hlast]
    simp
  · simp [hmod]

/-! ## One step -/

theorem topIsLast_darkroomStep (e : DarkroomEvent) (hlast : TopIsLast s) :
    TopIsLast (darkroomStep commitEnabled s e) := by
  cases e with
  | popItems cnt =>
    intro _ hsynch hremove
    simp only [darkroomStep, dtDevPopHistoryItems, raise] at hsynch hremove
    split at hremove <;> simp_all
  | addItem m params blendParams enabled enable includeMasks =>
    intro _ _ _
    obtain ⟨pre, item, hadd⟩ := devAddHistoryItemExt_addsItem
      (userChange s.dev m params blendParams enabled) m enable false includeMasks
    change (devAddHistoryItemExt _ m enable false includeMasks).1.historyEnd = _
    rw [hadd.historyEnd_eq, ← hadd.history_eq]
    rfl
  | requestFocus => exact hlast
  | pipeRun =>
    intro htop
    cases htop

variable {pre : List (HistoryItem ModuleRef)}

/-- Before an edit that changes the top item, and with no full run due, the pieces of the other
modules show what the active items say. -/
theorem others_synched {s : Darkroom} {m : ModuleRef}
    (hlast : TopIsLast s) (hchange : ChangeSynchs commitEnabled s)
    (hsynch : s.pipe.changed.synch = false) (hremove : s.pipe.changed.remove = false)
    (hkept : keptHistory s.dev = pre ++ [h]) (hmod : h.module = m) :
    ∀ piece ∈ s.pipe.nodes, piece.module ≠ m →
      piece.shown = shownAfter commitEnabled s.dev.active s.dev.mods piece.module := by
  cases htop : s.pipe.changed.topChanged with
  | false =>
    intro piece hpiece _
    have hpieces := (changeSynchs_iff_of_notDue commitEnabled hsynch hremove).mp hchange
    have hshown := hpieces piece hpiece
    rw [Piece.topSynch, htop] at hshown
    exact hshown
  | true =>
    -- nothing is kept above the top item, which is the item of `m` that changes again
    have hend : s.dev.historyEnd = s.dev.history.length := hlast htop hsynch hremove
    have hnone : keptModules s.dev = [] := by
      unfold keptModules
      rw [hend, List.drop_length]
      rfl
    have hactive : s.dev.active = pre ++ [h] := by
      rw [← hkept, keptHistory, hnone, List.append_nil]
    have hall : s.dev.history = pre ++ [h] := by
      rw [← hactive, Develop.active, hend, List.take_length]
    have hitem : topItem s.dev = some h := by
      unfold topItem
      rw [hend, hall, List.length_append]
      exact List.getElem?_concat_length
    have hown : lastFor HistoryItem.module h.module s.dev.active = some h := by
      rw [hactive, lastFor_concat_self _ _ rfl]
    have hothers :=
      (changeSynchs_iff_of_top commitEnabled htop hsynch hremove hitem hown).mp hchange
    intro piece hpiece hne
    exact hothers piece hpiece (by rw [hmod]; exact hne)

theorem shownAfter_of_ne {dev : Develop} {m n : ModuleRef} {noImage : Bool}
    {r : Develop × PipeChanged}
    {item : HistoryItem ModuleRef} (hadd : AddsItem dev m noImage r pre item) (hne : n ≠ m) :
    shownAfter commitEnabled r.1.active r.1.mods n =
      shownAfter commitEnabled (keptHistory dev) dev.mods n := by
  unfold shownAfter
  rw [hadd.lastFor_of_ne hne, hadd.frame n hne]

theorem changeSynchs_addItem_iff {s : Darkroom} (hlast : TopIsLast s)
    (hchange : ChangeSynchs commitEnabled s) (m : ModuleRef) (params blendParams : Blob)
    (enabled enable includeMasks : Bool) :
    ChangeSynchs commitEnabled (darkroomStep commitEnabled s
        (.addItem m params blendParams enabled enable includeMasks)) ↔
      TopSuffices commitEnabled s (.addItem m params blendParams enabled enable includeMasks) := by
  obtain ⟨pre, item, hadd⟩ := devAddHistoryItemExt_addsItem
    (userChange s.dev m params blendParams enabled) m enable false includeMasks
  have hflags := devAddHistoryItemExt_flags (userChange s.dev m params blendParams enabled) m
    enable false includeMasks
  unfold TopSuffices darkroomStep
  dsimp only
  generalize devAddHistoryItemExt _ m enable false includeMasks = r at hadd hflags
  by_cases hdue : s.pipe.changed.synch = true ∨ s.pipe.changed.remove = true
  · refine iff_of_true (changeSynchs_of_all commitEnabled ?_) (by tauto)
    simp only [raise, Bool.or_eq_true]
    tauto
  rw [not_or, Bool.not_eq_true, Bool.not_eq_true] at hdue
  obtain ⟨hsynch, hremove⟩ := hdue
  by_cases hpush : pushesItem (userChange s.dev m params blendParams enabled) m includeMasks = true
  · rw [if_pos hpush] at hflags
    refine iff_of_true (changeSynchs_of_all commitEnabled (Or.inl ?_)) (by tauto)
    rw [hflags]
    exact Bool.or_true _
  rw [if_neg hpush] at hflags
  -- the top item changes, and the pieces of the other modules stay as they are
  have hbelow : ∃ h, keptHistory s.dev = pre ++ [h] ∧ h.module = m := by
    rcases hadd.below with ⟨-, hr⟩ | ⟨h, hkept, hmod, -⟩
    · rw [hflags] at hr
      cases hr
    · rw [keptHistory_userChange] at hkept
      exact ⟨h, hkept, hmod⟩
  obtain ⟨h, hkept, hmod⟩ := hbelow
  have hothers := others_synched commitEnabled hlast hchange hsynch hremove hkept hmod
  rw [changeSynchs_iff_of_top commitEnabled (by simp [raise, hflags])
    (by simp [raise, hflags, hsynch]) (by simp [raise, hflags, hremove])
    hadd.topItem_eq (by rw [hadd.module_eq]; exact hadd.lastFor_self), hadd.module_eq]
  simp only [hsynch, hremove, hpush, Bool.false_eq_true, false_or]
  apply forall₃_congr
  intro piece hpiece hne
  have hmods : (userChange s.dev m params blendParams enabled).mods piece.module =
      s.dev.mods piece.module := Develop.setModule_mods_of_ne _ _ hne
  rw [hothers piece hpiece hne, shownAfter_of_ne commitEnabled hadd hne, keptHistory_userChange,
    eq_comm]
  unfold shownAfter
  rw [hmods]

theorem changeSynchs_pipeRun (hchange : ChangeSynchs commitEnabled s) :
    ChangeSynchs commitEnabled (darkroomStep commitEnabled s .pipeRun) := by
  rw [changeSynchs_iff_of_notDue commitEnabled rfl rfl]
  exact (changeSynchs_iff_synched commitEnabled s).mp hchange

theorem changeSynchs_requestFocus (hchange : ChangeSynchs commitEnabled s) :
    ChangeSynchs commitEnabled (darkroomStep commitEnabled s .requestFocus) := by
  by_cases hdue : s.pipe.changed.synch = true ∨ s.pipe.changed.remove = true
  · exact changeSynchs_of_all commitEnabled hdue
  · rw [not_or, Bool.not_eq_true, Bool.not_eq_true] at hdue
    rw [changeSynchs_iff_of_notDue commitEnabled hdue.1 hdue.2] at hchange
    refine (changeSynchs_iff_of_notDue commitEnabled ?_ ?_).mpr hchange
    · exact hdue.1
    · exact hdue.2

theorem changeSynchs_darkroomStep_iff (e : DarkroomEvent) (hlast : TopIsLast s)
    (hchange : ChangeSynchs commitEnabled s) :
    ChangeSynchs commitEnabled (darkroomStep commitEnabled s e) ↔
      TopSuffices commitEnabled s e := by
  cases e with
  | popItems cnt =>
    refine iff_of_true (changeSynchs_of_all commitEnabled ?_) trivial
    simp only [darkroomStep, dtDevPopHistoryItems, raise]
    split <;> simp
  | addItem m params blendParams enabled enable includeMasks =>
    exact changeSynchs_addItem_iff commitEnabled hlast hchange m params blendParams enabled enable
      includeMasks
  | requestFocus => exact iff_of_true (changeSynchs_requestFocus commitEnabled s hchange) trivial
  | pipeRun => exact iff_of_true (changeSynchs_pipeRun commitEnabled s hchange) trivial

/-- From any develop and any pipe that is due for a full synchronisation, a pipe run is as good as
a full one all along, if and only if each edit of the top item meets kept items that change no
other piece. -/
theorem changeSynchs_run_iff (dev : Develop) (iop : List ModuleRef) (nodes : List Piece)
    (events : List DarkroomEvent) :
    let s : Darkroom :=
      { dev := dev, pipe := { iop := iop, nodes := nodes, changed := { synch := true } } }
    AllStates (darkroomStep commitEnabled) (ChangeSynchs commitEnabled) s events ↔
      AllSteps (darkroomStep commitEnabled) (TopSuffices commitEnabled) s events := by
  intro s
  have hlast : TopIsLast s := fun htop => absurd htop Bool.false_ne_true
  have hchange : ChangeSynchs commitEnabled s := changeSynchs_of_all commitEnabled (Or.inl rfl)
  exact allStates_iff_allSteps_of_aux (topIsLast_darkroomStep commitEnabled)
    (changeSynchs_darkroomStep_iff commitEnabled) hlast hchange

end Runs

-- one item for each module; colorin and exposure are on by default
def keptPair : Darkroom where
  dev :=
    { focusHash := 0
      historyEnd := 3
      history := [sampleItem 0, sampleItem 1, sampleItem 2]
      iop := [0, 1, 2]
      iopOrderList := sampleOrders
      forms := []
      guiModule := none
      previewDownsampling := 1
      mods := fun m => { sampleModule m with
        defaultEnabled := m ≠ 0
        params := [1]
        enabled := true } }
  pipe :=
    { iop := [0, 1, 2]
      nodes := [⟨0, true, [1], [0]⟩, ⟨1, true, [1], [0]⟩, ⟨2, true, [1], [0]⟩]
      changed := { synch := true } }

/-- Go back to the first item, let the pipe run, then change exposure: the item of colorin is active
again, and the pipe run does not commit it. -/
theorem changeTop_misses_kept_item :
    ¬ ChangeSynchs (fun _ _ => true) ([.popItems 1, .pipeRun,
      .addItem 2 [5] [0] true true false].foldl (darkroomStep fun _ _ => true) keptPair) := by
  unfold ChangeSynchs
  decide

end DTLite
