import DTLite.Develop.MasksRemove
import DTLite.Reasoning.Walk

/-!
# Reasoning about deleting forms

`dt_masks_form_remove` calls itself from two loops.  What all its calls keep is stated once, as a
rule: an invariant has to be kept by the few writes that a call makes, each with what is known at
that point.
-/

namespace DTLite

open Reasoning List Option Function

namespace MasksDevelop

section Calls

variable (id : Int) (s : MasksDevelop) (k grp form n : Nat)

-- `type & (DT_MASKS_CLONE|DT_MASKS_NON_CLONE)`: such a form is always deleted for good
def AlwaysDeleted (s : MasksDevelop) (a : Nat) : Prop :=
  (s.heap a).isClone = true ∨ (s.heap a).isNonClone = true

variable {s grp form} in
theorem dtMasksFormRemove_deletes (hgroup : (s.heap grp).isGroup = true)
    (hform : s.AlwaysDeleted form) :
    dtMasksFormRemove (n + 1) s (some grp) form = dtMasksFormRemove (n + 1) s none form := by
  rw [dtMasksFormRemove, dtMasksFormRemove]
  rw [if_neg (by simp [hgroup]), if_pos (by simpa [AlwaysDeleted] using hform)]

def pointsWithout : List MasksPointGroup :=
  (s.heap grp).points.eraseP (·.formid = (s.heap form).formid)

variable {s grp form} in
theorem dtMasksFormRemove_takes (hgroup : (s.heap grp).isGroup = true)
    (hform : ¬ s.AlwaysDeleted form)
    (hmem : ∃ pt ∈ (s.heap grp).points, pt.formid = (s.heap form).formid) :
    dtMasksFormRemove (n + 1) s (some grp) form =
      if s.pointsWithout grp form = [] then
        dtMasksFormRemove n (s.setPoints grp (s.pointsWithout grp form)) none grp
      else some (s.setPoints grp (s.pointsWithout grp form)) := by
  rw [dtMasksFormRemove]
  rw [if_neg (by simp [hgroup]), if_neg (by simpa [AlwaysDeleted] using hform),
    if_pos (by simpa using hmem)]
  rfl

variable {s grp form} in
theorem dtMasksFormRemove_same (h : (s.heap grp).isGroup = false ∨ ¬ s.AlwaysDeleted form ∧
    ¬ ∃ pt ∈ (s.heap grp).points, pt.formid = (s.heap form).formid) :
    dtMasksFormRemove (n + 1) s (some grp) form = some s := by
  rw [dtMasksFormRemove]
  rcases h with hgroup | ⟨hform, hmem⟩
  · rw [if_pos hgroup]
  · by_cases hgroup : (s.heap grp).isGroup = false
    · rw [if_pos hgroup]
    · rw [if_neg hgroup, if_neg (by simpa [AlwaysDeleted] using hform),
        if_neg (by simpa using hmem)]

theorem dtMasksFormRemove_some_cases :
    ((s.heap grp).isGroup = true ∧ s.AlwaysDeleted form) ∨
    ((s.heap grp).isGroup = true ∧ ¬ s.AlwaysDeleted form ∧
      ∃ pt ∈ (s.heap grp).points, pt.formid = (s.heap form).formid) ∨
    ((s.heap grp).isGroup = false ∨ ¬ s.AlwaysDeleted form ∧
      ¬ ∃ pt ∈ (s.heap grp).points, pt.formid = (s.heap form).formid) := by
  by_cases hgroup : (s.heap grp).isGroup = true
  · by_cases hform : s.AlwaysDeleted form
    · exact .inl ⟨hgroup, hform⟩
    · by_cases hmem : ∃ pt ∈ (s.heap grp).points, pt.formid = (s.heap form).formid
      · exact .inr (.inl ⟨hgroup, hform, hmem⟩)
      · exact .inr (.inr (.inr ⟨hform, hmem⟩))
  · exact .inr (.inr (.inl (Bool.eq_false_iff.mpr hgroup)))

end Calls

section Mono

variable {remove remove' : MasksDevelop → Option Nat → Nat → Option MasksDevelop}
  {s s' : MasksDevelop} {id : Int} {k n m form : Nat}

def Extended (remove remove' : MasksDevelop → Option Nat → Nat → Option MasksDevelop) : Prop :=
  ∀ s grp form s', remove s grp form = some s' → remove' s grp form = some s'

section

variable (h : Extended remove remove')
include h

theorem Extended.removeFromModule (heq : removeFromModule remove id s k = some s') :
    removeFromModule remove' id s k = some s' := by
  rcases removeFromModule_turn id s k with ⟨-, hturn⟩ | ⟨m, -, -, -, hturn⟩ |
      ⟨m, g, -, -, -, -, -, hturn⟩
  all_goals rw [hturn] at heq ⊢
  · exact heq
  · exact heq
  · split at heq
    next hempty => exact (if_pos hempty).trans (h _ _ _ _ heq)
    next hleft => exact (if_neg hleft).trans heq

theorem Extended.removeChildren (hnm : n ≤ m) (heq : removeChildren remove form n s = some s') :
    removeChildren remove' form m s = some s' := by
  induction n generalizing m s with
  | zero => cases heq
  | succ n ih =>
    obtain ⟨m, rfl⟩ : ∃ k, m = k + 1 := ⟨m - 1, by omega⟩
    rw [DTLite.removeChildren] at heq ⊢
    cases hpoints : (s.heap form).points with
    | nil =>
      rw [hpoints] at heq
      exact heq
    | cons child rest =>
      rw [hpoints] at heq
      dsimp only at heq ⊢
      cases hget : s.dtMasksGetFromId child.formid with
      | none =>
        rw [hget] at heq
        exact ih (by omega) heq
      | some c =>
        rw [hget] at heq
        obtain ⟨s₁, hcall, heq⟩ := bind_eq_some_iff.mp heq
        exact bind_eq_some_iff.mpr ⟨s₁, h _ _ _ _ hcall, ih (by omega) heq⟩

theorem Extended.removeForGood (hnm : n ≤ m) (heq : removeForGood remove n s form = some s') :
    removeForGood remove' m s form = some s' := by
  obtain ⟨s₁, s₂, hchildren, hloop, hdrop⟩ := removeForGood_eq_some.mp heq
  refine removeForGood_eq_some.mpr ⟨s₁, s₂, ?_, ?_, hdrop⟩
  · exact hchildren.imp_left fun hchildren => ⟨hchildren.1, h.removeChildren hnm hchildren.2⟩
  · exact foldlM_mono (fun _ _ _ => h.removeFromModule) hloop

end

/-- A call that returns also returns with more steps. -/
theorem extended_dtMasksFormRemove (hnm : n ≤ m) :
    Extended (dtMasksFormRemove n) (dtMasksFormRemove m) := by
  induction n generalizing m with
  | zero =>
    intro s grp form s' heq
    cases heq
  | succ n ih =>
    obtain ⟨m, rfl⟩ : ∃ k, m = k + 1 := ⟨m - 1, by omega⟩
    have hle : n ≤ m := by omega
    intro s grp form s' heq
    cases grp with
    | none => exact (ih hle).removeForGood hle heq
    | some grp =>
      rcases dtMasksFormRemove_some_cases s grp form with ⟨hgroup, hform⟩ |
          ⟨hgroup, hform, hmem⟩ | hsame
      · rw [dtMasksFormRemove_deletes _ hgroup hform] at heq ⊢
        exact (ih hle).removeForGood hle heq
      · rw [dtMasksFormRemove_takes _ hgroup hform hmem] at heq ⊢
        by_cases hempty : s.pointsWithout grp form = []
        · rw [if_pos hempty] at heq ⊢
          exact ih hle _ _ _ _ heq
        · rw [if_neg hempty] at heq ⊢
          exact heq
      · rw [dtMasksFormRemove_same _ hsame] at heq ⊢
        exact heq

end Mono

/-! ## The rule -/

/-- What the writes of a call leave of the forms and the modules of `s₀`. -/
structure Trimmed (s₀ s : MasksDevelop) : Prop where
  forms : s.forms.Sublist s₀.forms
  formid : ∀ a, (s.heap a).formid = (s₀.heap a).formid
  type : ∀ a, (s.heap a).type = (s₀.heap a).type
  points : ∀ a, (s.heap a).points.Sublist (s₀.heap a).points
  iop : ∀ m ∈ s.iop, m.maskId ≠ 0 → m ∈ s₀.iop

/-- The members of the form have been deleted before, if it is a cloning group. -/
def Childless (s : MasksDevelop) (a : Nat) : Prop := s.Cloning a → (s.heap a).points = []

/-- What has to be shown for an invariant `I` of the calls that delete forms for good, all of
which are `Ok`. -/
structure RemovalRule (s₀ : MasksDevelop) (I : MasksDevelop → Prop) (Ok : Nat → Prop) : Prop where
  start : s₀.Distinct
  trimmed : ∀ s, I s → Trimmed s₀ s
  -- a member is taken out of a group
  takes : ∀ s grp x, I s → Ok grp → x ∈ s.forms → ¬ s.AlwaysDeleted x →
    I (s.setPoints grp (s.pointsWithout grp x))
  -- a base group loses the form that is being deleted
  loses : ∀ s x m grp, I s → Ok x → s.Childless x → m ∈ s.iop → m.supportsBlending = true →
    s.dtMasksGetFromId m.maskId = some grp →
    I (s.setPoints grp ((s.heap grp).points.filter (·.formid ≠ (s.heap x).formid)))
  -- a module loses its base group
  clears : ∀ s x k m, I s → Ok x → s.Childless x → s.iop[k]? = some m →
    m.maskId = (s.heap x).formid → I (s.clearMaskId k m)
  -- the form goes, when no base group has it any more
  drops : ∀ s x, I s → Ok x → s.Childless x →
    (∀ k < s.iop.length, s.Visited (s.heap x).formid k) → I (s.dropForm (s.heap x).formid)
  ok_base : ∀ s m grp, I s → m ∈ s.iop → m.supportsBlending = true →
    s.dtMasksGetFromId m.maskId = some grp → Ok grp
  ok_child : ∀ s c, I s → c ∈ s.forms → s.AlwaysDeleted c → Ok c
  ok_ne_zero : ∀ x, Ok x → (s₀.heap x).formid ≠ 0

section Trimmed

variable {s₀ s : MasksDevelop} {a : Nat}

theorem Trimmed.refl (s : MasksDevelop) : Trimmed s s where
  forms := List.Sublist.refl _
  formid _ := rfl
  type _ := rfl
  points _ := List.Sublist.refl _
  iop _ hm _ := hm

theorem Trimmed.trans {s' : MasksDevelop} (h : Trimmed s₀ s) (h' : Trimmed s s') :
    Trimmed s₀ s' where
  forms := h'.forms.trans h.forms
  formid a := (h'.formid a).trans (h.formid a)
  type a := (h'.type a).trans (h.type a)
  points a := (h'.points a).trans (h.points a)
  iop m hm hne := h.iop m (h'.iop m hm hne) hne

theorem Trimmed.formids (h : Trimmed s₀ s) : s.formids.Sublist s₀.formids := by
  have hmap : s.formids = s.forms.map fun a => (s₀.heap a).formid :=
    map_congr_left fun a _ => h.formid a
  rw [hmap]
  exact h.forms.map _

section

variable (h : Trimmed s₀ s)
include h

theorem Trimmed.distinct (hs : s₀.Distinct) : s.Distinct :=
  ⟨h.formids.nodup hs.1, fun hmem => hs.2 (h.formids.subset hmem)⟩

theorem Trimmed.cloning : s.Cloning a ↔ s₀.Cloning a := by
  unfold Cloning DrawnForm.isGroup DrawnForm.isClone
  rw [h.type]

theorem Trimmed.alwaysDeleted : s.AlwaysDeleted a ↔ s₀.AlwaysDeleted a := by
  unfold AlwaysDeleted DrawnForm.isClone DrawnForm.isNonClone
  rw [h.type]

theorem Trimmed.setPoints {grp : Nat} {points : List MasksPointGroup}
    (hsub : points.Sublist (s.heap grp).points) : Trimmed s₀ (s.setPoints grp points) where
  forms := h.forms
  formid a := formid_setPoints.trans (h.formid a)
  type a := type_setPoints.trans (h.type a)
  points a := (points_setPoints_sublist hsub).trans (h.points a)
  iop := h.iop

theorem Trimmed.clearMaskId (k : Nat) (m : BlendModule) : Trimmed s₀ (s.clearMaskId k m) where
  __ := h
  iop m' hm' hne := by
    rcases mem_or_eq_of_mem_set hm' with hm' | rfl
    · exact h.iop m' hm' hne
    · exact absurd rfl hne

theorem Trimmed.dropForm (id : Int) : Trimmed s₀ (s.dropForm id) where
  __ := h
  forms := eraseP_sublist.trans h.forms

theorem Trimmed.isBase (hs : s₀.Distinct) (ha : a ∈ s₀.forms) (hbase : s.IsBase a) :
    s₀.IsBase a := by
  obtain ⟨m, hm, hsupports, hmask⟩ := hbase
  rw [h.formid] at hmask
  have hne := hs.ne_zero (mem_formids.mpr ⟨a, ha, rfl⟩)
  exact ⟨m, h.iop m hm (hmask ▸ hne), hsupports, hmask⟩

end

end Trimmed

namespace RemovalRule

variable {s₀ : MasksDevelop} {I : MasksDevelop → Prop} {Ok : Nat → Prop} {s s' : MasksDevelop}
  {n x : Nat}

def Preserved (I : MasksDevelop → Prop) (Ok : Nat → Prop) (n : Nat) : Prop :=
  ∀ s grp form s', I s → (grp = none → Ok form) → (∀ g, grp = some g → Ok g ∧ form ∈ s.forms) →
    dtMasksFormRemove n s grp form = some s' → I s'

section

variable (hrule : RemovalRule s₀ I Ok)
include hrule

theorem distinct (hs : I s) : s.Distinct := (hrule.trimmed s hs).distinct hrule.start

theorem childless (hs : I s) (hs' : I s') (h : s.Childless x)
    (hpoints : (s'.heap x).points ⊆ (s.heap x).points) : s'.Childless x := by
  intro hclone
  rw [(hrule.trimmed s' hs').cloning, ← (hrule.trimmed s hs).cloning] at hclone
  rw [h hclone] at hpoints
  exact subset_nil.mp hpoints

theorem formid_eq (hs : I s) (hs' : I s') : (s'.heap x).formid = (s.heap x).formid :=
  ((hrule.trimmed s' hs').formid x).trans ((hrule.trimmed s hs).formid x).symm

theorem removeFromModule (hcalls : Preserved I Ok n) (hs : I s)
    (hx : Ok x) (hchildless : s.Childless x) {k : Nat}
    (heq : removeFromModule (dtMasksFormRemove n) (s.heap x).formid s k = some s') :
    I s' ∧ s'.Childless x := by
  have hI : I s' := by
    rcases removeFromModule_turn (s.heap x).formid s k with ⟨-, hturn⟩ |
        ⟨m, hk, -, hmask, hturn⟩ | ⟨m, grp, hk, hsupports, -, hget, -, hturn⟩
    all_goals rw [hturn] at heq
    · cases heq
      exact hs
    · cases heq
      exact hrule.clears s x k m hs hx hchildless hk hmask
    · have hmem := mem_of_getElem? hk
      have hloses := hrule.loses s x m grp hs hx hchildless hmem hsupports hget
      split at heq
      · exact hcalls _ _ _ _ hloses (fun _ => hrule.ok_base s m grp hs hmem hsupports hget)
          (fun g hg => by cases hg) heq
      · cases heq
        exact hloses
  obtain ⟨⟨hshrinks, -⟩, -⟩ :=
    @Complete.removeFromModule (dtMasksFormRemove n) [(s.heap x).formid] s s' _ k
      (complete_dtMasksFormRemove n) (hrule.distinct hs) mem_cons_self heq
  exact ⟨hI, hrule.childless hs hI hchildless (hshrinks.points x)⟩

theorem removeFromModules (hcalls : Preserved I Ok n) (hs : I s)
    (hx : Ok x) (hchildless : s.Childless x) {ks : List Nat}
    (heq : ks.foldlM (DTLite.removeFromModule (dtMasksFormRemove n) (s.heap x).formid) s =
      some s') : I s' ∧ s'.Childless x := by
  induction ks generalizing s with
  | nil =>
    cases heq
    exact ⟨hs, hchildless⟩
  | cons k ks ih =>
    obtain ⟨s₁, hturn, heq⟩ := bind_eq_some_iff.mp heq
    obtain ⟨hs₁, hchildless₁⟩ := hrule.removeFromModule hcalls hs hx hchildless hturn
    rw [← hrule.formid_eq hs hs₁] at heq
    exact ih hs₁ hchildless₁ heq

end

theorem removeChildren (hcalls : Preserved I Ok n) (hs : I s) (hx : Ok x) {k : Nat}
    (heq : removeChildren (dtMasksFormRemove n) x k s = some s') :
    I s' ∧ (s'.heap x).points = [] := by
  induction k generalizing s with
  | zero => cases heq
  | succ k ih =>
    rw [DTLite.removeChildren] at heq
    cases hpoints : (s.heap x).points with
    | nil =>
      rw [hpoints] at heq
      cases heq
      exact ⟨hs, hpoints⟩
    | cons child rest =>
      rw [hpoints] at heq
      dsimp only at heq
      cases hget : s.dtMasksGetFromId child.formid with
      | none =>
        rw [hget] at heq
        exact ih hs heq
      | some c =>
        rw [hget] at heq
        obtain ⟨s₁, hcall, heq⟩ := bind_eq_some_iff.mp heq
        refine ih (hcalls _ _ _ _ hs (fun h => by cases h) ?_ hcall) heq
        intro g hg
        cases hg
        exact ⟨hx, (dtMasksGetFromId_eq_some hget).1⟩

theorem removeForGood (hrule : RemovalRule s₀ I Ok) (hcalls : Preserved I Ok n) (hs : I s)
    (hx : Ok x) {k : Nat}
    (heq : removeForGood (dtMasksFormRemove n) k s x = some s') : I s' := by
  obtain ⟨s₁, s₂, hchildren, hloop, rfl⟩ := removeForGood_eq_some.mp heq
  have hfirst : I s₁ ∧ s₁.Childless x := by
    rcases hchildren with ⟨-, hchildren⟩ | ⟨hclone, rfl⟩
    · obtain ⟨hs₁, hpoints⟩ := RemovalRule.removeChildren hcalls hs hx hchildren
      exact ⟨hs₁, fun _ => hpoints⟩
    · exact ⟨hs, fun hcloning => absurd hcloning hclone⟩
  obtain ⟨hs₁, hchildless₁⟩ := hfirst
  rw [← hrule.formid_eq hs hs₁] at hloop
  obtain ⟨hs₂, hchildless₂⟩ := hrule.removeFromModules hcalls hs₁ hx hchildless₁ hloop
  have hdistinct₁ := hrule.distinct hs₁
  obtain ⟨⟨hshrinks, -⟩, hvisited⟩ :=
    @Complete.removeFromModules (dtMasksFormRemove n) [(s₁.heap x).formid] s₁ s₂ _
      (complete_dtMasksFormRemove n) hdistinct₁ mem_cons_self _ hloop
  have hne : (s₁.heap x).formid ≠ 0 := by
    rw [(hrule.trimmed s₁ hs₁).formid]
    exact hrule.ok_ne_zero x hx
  have hid : (s₂.heap x).formid = (s.heap x).formid := hrule.formid_eq hs hs₂
  rw [← hid]
  apply hrule.drops s₂ x hs₂ hx hchildless₂
  intro k hk
  rw [hrule.formid_eq hs₁ hs₂]
  exact hvisited hne k (mem_range.mpr (hshrinks.length ▸ hk))

/-- An invariant of the writes is one of the calls. -/
theorem preserved (hrule : RemovalRule s₀ I Ok) (n : Nat) : Preserved I Ok n := by
  induction n with
  | zero =>
    intro s grp form s' _ _ _ heq
    cases heq
  | succ n ih =>
    intro s grp form s' hs hnone hsome heq
    cases grp with
    | none => exact hrule.removeForGood ih hs (hnone rfl) heq
    | some grp =>
      obtain ⟨hgrp, hmem⟩ := hsome grp rfl
      rcases dtMasksFormRemove_some_cases s grp form with ⟨hgroup, hform⟩ |
          ⟨hgroup, hform, hpt⟩ | hsame
      · rw [dtMasksFormRemove_deletes _ hgroup hform] at heq
        exact hrule.removeForGood ih hs (hrule.ok_child s form hs hmem hform) heq
      · have htakes := hrule.takes s grp form hs hgrp hmem hform
        rw [dtMasksFormRemove_takes _ hgroup hform hpt] at heq
        by_cases hempty : s.pointsWithout grp form = []
        · rw [if_pos hempty] at heq
          exact ih _ _ _ _ htakes (fun _ => hgrp) (fun g hg => by cases hg) heq
        · rw [if_neg hempty] at heq
          cases heq
          exact htakes
      · rw [dtMasksFormRemove_same _ hsame] at heq
        cases heq
        exact hs

end RemovalRule

theorem pointsWithout_sublist (s : MasksDevelop) (grp form : Nat) :
    (s.pointsWithout grp form).Sublist (s.heap grp).points :=
  eraseP_sublist

theorem removalRule_trimmed {s₀ : MasksDevelop} (hs₀ : s₀.Distinct) :
    RemovalRule s₀ (Trimmed s₀) (· ∈ s₀.forms) where
  start := hs₀
  trimmed _ h := h
  takes s grp x h _ _ _ := h.setPoints (s.pointsWithout_sublist grp x)
  loses _ _ _ _ h _ _ _ _ _ := h.setPoints filter_sublist
  clears _ _ k m h _ _ _ _ := h.clearMaskId k m
  drops _ _ h _ _ _ := h.dropForm _
  ok_base _ _ _ h _ _ hget := h.forms.subset (dtMasksGetFromId_eq_some hget).1
  ok_child _ _ h hc _ := h.forms.subset hc
  ok_ne_zero x hx := hs₀.ne_zero (mem_formids.mpr ⟨x, hx, rfl⟩)

theorem trimmed_dtMasksFormRemove {n form : Nat} {s s' : MasksDevelop} (hs : s.Distinct)
    (hform : form ∈ s.forms) (heq : dtMasksFormRemove n s none form = some s') : Trimmed s s' :=
  (removalRule_trimmed hs).preserved n s none form s' (Trimmed.refl s) (fun _ => hform)
    (fun g hg => by cases hg) heq

end MasksDevelop

end DTLite
