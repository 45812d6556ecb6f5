import DTLite.Develop.MasksCycles
import DTLite.Develop.MasksRemoveRule

/-!
# Where the deletion of a form comes to an end

Deleting a cloning group deletes its members, one call after the other, until the group has no
points.  Nothing in that loop takes a point out of the group: this is left to the calls, and a call
for a member that does not exist, or that is deleted for good, may leave the point where it is.
-/

namespace DTLite

open Reasoning List Option Function

namespace MasksDevelop

def Returns (s : MasksDevelop) (grp : Option Nat) (form : Nat) : Prop :=
  ∃ n s', dtMasksFormRemove n s grp form = some s'

def pointCount (s : MasksDevelop) : Nat := total (fun a => (s.heap a).points.length) s.forms

section Modules

variable {s s' : MasksDevelop} {form n k : Nat} {id : Int}

theorem Trimmed.pointCount_le (h : Trimmed s s') : s'.pointCount ≤ s.pointCount :=
  calc
    s'.pointCount ≤ total (fun a => (s'.heap a).points.length) s.forms :=
      total_le_of_sublist h.forms
    _ ≤ s.pointCount := total_le_total fun a _ => (h.points a).length_le

theorem pointCount_setPoints_nil {g : Nat} (hg : g ∈ s.forms) {pt : MasksPointGroup}
    (hpt : pt ∈ (s.heap g).points) : (s.setPoints g []).pointCount < s.pointCount := by
  have htrim : Trimmed s (s.setPoints g []) := (Trimmed.refl s).setPoints (nil_sublist _)
  refine total_lt_total (fun a _ => (htrim.points a).length_le) hg ?_
  rw [points_setPoints_self]
  exact length_pos_of_mem hpt

theorem trimmed_removeFromModule (hs : s.Distinct)
    (heq : removeFromModule (dtMasksFormRemove n) id s k = some s') : Trimmed s s' := by
  rcases removeFromModule_turn id s k with ⟨-, hturn⟩ | ⟨m, -, -, -, hturn⟩ |
      ⟨m, grp, -, -, -, hget, -, hturn⟩
  all_goals rw [hturn] at heq
  · cases heq
    exact Trimmed.refl s
  · cases heq
    exact (Trimmed.refl s).clearMaskId k m
  · have htrim : Trimmed s (s.setPoints grp ((s.heap grp).points.filter (·.formid ≠ id))) :=
      (Trimmed.refl s).setPoints filter_sublist
    split at heq
    · exact htrim.trans (trimmed_dtMasksFormRemove (htrim.distinct hs)
        (dtMasksGetFromId_eq_some hget).1 heq)
    · cases heq
      exact htrim

/-- A form without children is deleted when the loop over the modules ends. -/
theorem returns_of_modules (hchildless : s.Childless form)
    (hloop : ∃ n s', (range s.iop.length).foldlM
      (removeFromModule (dtMasksFormRemove n) (s.heap form).formid) s = some s') :
    s.Returns none form := by
  obtain ⟨n, s', hloop⟩ := hloop
  refine ⟨n + 2, s'.dropForm (s.heap form).formid, ?_⟩
  refine removeForGood_eq_some.mpr ⟨s, s', ?_, foldlM_mono
    (fun _ _ _ => (extended_dtMasksFormRemove (Nat.le_succ n)).removeFromModule) hloop, rfl⟩
  by_cases hclone : s.Cloning form
  · refine .inl ⟨hclone, ?_⟩
    rw [removeChildren, hchildless hclone]
  · exact .inr ⟨hclone, rfl⟩

theorem exists_steps_cons {s₁ : MasksDevelop} {ks : List Nat} {m : Nat}
    (hturn : removeFromModule (dtMasksFormRemove n) id s k = some s₁)
    (hrest : ks.foldlM (removeFromModule (dtMasksFormRemove m) id) s₁ = some s') :
    (k :: ks).foldlM (removeFromModule (dtMasksFormRemove (max n m)) id) s = some s' := by
  refine bind_eq_some_iff.mpr ⟨s₁, ?_, ?_⟩
  · exact (extended_dtMasksFormRemove (Nat.le_max_left n m)).removeFromModule hturn
  · exact foldlM_mono (fun _ _ _ =>
      (extended_dtMasksFormRemove (Nat.le_max_right n m)).removeFromModule) hrest

/-- The loop over the modules ends, because a call in it is made with fewer points. -/
theorem modules_end (p : Nat) (hs : s.Distinct) (hp : s.pointCount ≤ p) (id : Int) (ks : List Nat) :
    ∃ n s', ks.foldlM (removeFromModule (dtMasksFormRemove n) id) s = some s' := by
  induction p using Nat.strong_induction_on generalizing s id ks with
  | h p ih =>
    induction ks generalizing s with
    | nil => exact ⟨0, s, rfl⟩
    | cons k ks ihks =>
      have hturn : ∃ n s₁, removeFromModule (dtMasksFormRemove n) id s k = some s₁ := by
        rcases removeFromModule_turn id s k with ⟨-, hturn⟩ | ⟨m, -, -, -, hturn⟩ |
            ⟨m, g, -, -, -, hget, ⟨pt, hpt, -⟩, hturn⟩
        · exact ⟨0, _, hturn _⟩
        · exact ⟨0, _, hturn _⟩
        by_cases hempty : (s.heap g).points.filter (·.formid ≠ id) = []
        · have hlt := pointCount_setPoints_nil (dtMasksGetFromId_eq_some hget).1 hpt
          have hdistinct : (s.setPoints g []).Distinct :=
            ((Trimmed.refl s).setPoints (nil_sublist _)).distinct hs
          obtain ⟨n, s₁, hs₁⟩ := returns_of_modules (fun _ => points_setPoints_self)
            (ih _ (hlt.trans_le hp) hdistinct le_rfl _ _)
          rw [← hempty] at hs₁
          exact ⟨n, s₁, (hturn _).trans ((if_pos hempty).trans hs₁)⟩
        · exact ⟨0, _, (hturn _).trans (if_neg hempty)⟩
      obtain ⟨n, s₁, hturn⟩ := hturn
      have htrim := trimmed_removeFromModule hs hturn
      obtain ⟨m, s', hrest⟩ := ihks (htrim.distinct hs) (htrim.pointCount_le.trans hp)
      exact ⟨max n m, s', exists_steps_cons hturn hrest⟩

theorem returns_of_childless (hs : s.Distinct) (h : s.Childless form) : s.Returns none form :=
  returns_of_modules h (modules_end _ hs le_rfl _ _)

end Modules

/-- A cloning group with a member that stays: one that does not exist; one that is deleted for good
while the group is no base group; one that is itself never emptied. -/
inductive Stuck (s : MasksDevelop) : Nat → Prop where
  | missing {a : Nat} {pt : MasksPointGroup} (hclone : s.Cloning a)
      (hpt : pt ∈ (s.heap a).points) (hmissing : pt.formid ∉ s.formids) : Stuck s a
  | noBase {a c : Nat} {pt : MasksPointGroup} (hclone : s.Cloning a)
      (hpt : pt ∈ (s.heap a).points) (hget : s.dtMasksGetFromId pt.formid = some c)
      (hdeleted : s.AlwaysDeleted c) (hbase : ¬ s.IsBase a) : Stuck s a
  | nested {a c : Nat} {pt : MasksPointGroup} (hclone : s.Cloning a)
      (hpt : pt ∈ (s.heap a).points) (hget : s.dtMasksGetFromId pt.formid = some c)
      (hstuck : Stuck s c) : Stuck s a

section Stuck

variable {s₀ s : MasksDevelop} {a x : Nat} {pt : MasksPointGroup}

theorem Stuck.cloning (h : s.Stuck a) : s.Cloning a := by
  cases h <;> assumption

def StuckPoint (s : MasksDevelop) (a : Nat) (pt : MasksPointGroup) : Prop :=
  pt.formid ∉ s.formids ∨ ∃ c, s.dtMasksGetFromId pt.formid = some c ∧ s.AlwaysDeleted c ∧
    (s.IsBase a → s.Stuck c)

theorem Stuck.exists_stuckPoint (h : s.Stuck a) : ∃ pt ∈ (s.heap a).points, s.StuckPoint a pt := by
  cases h with
  | missing _ hpt hmissing => exact ⟨_, hpt, .inl hmissing⟩
  | noBase _ hpt hget hdeleted hbase =>
    exact ⟨_, hpt, .inr ⟨_, hget, hdeleted, fun h => absurd h hbase⟩⟩
  | nested _ hpt hget hstuck =>
    exact ⟨_, hpt, .inr ⟨_, hget, .inl hstuck.cloning.2, fun _ => hstuck⟩⟩

theorem StuckPoint.of_formid_eq (hs : s.Distinct) (hx : x ∈ s.forms) (h : s.StuckPoint a pt)
    (hid : pt.formid = (s.heap x).formid) : s.AlwaysDeleted x ∧ (s.IsBase a → s.Stuck x) := by
  rcases h with hmissing | ⟨c, hget, hdeleted, hstuck⟩
  · exact absurd (mem_formids.mpr ⟨x, hx, hid.symm⟩) hmissing
  · rw [hid, dtMasksGetFromId_of_mem hs.1 hx] at hget
    cases hget
    exact ⟨hdeleted, hstuck⟩

/-- The points of such members stay. -/
def KeepsStuck (s₀ s : MasksDevelop) : Prop :=
  Trimmed s₀ s ∧ ∀ a, s₀.Stuck a → ∃ pt ∈ (s.heap a).points, s₀.StuckPoint a pt

theorem KeepsStuck.setPoints (h : KeepsStuck s₀ s) {grp : Nat} {points : List MasksPointGroup}
    (hsub : points.Sublist (s.heap grp).points)
    (hkept : ∀ pt ∈ (s.heap grp).points, s₀.StuckPoint grp pt → pt ∈ points) :
    KeepsStuck s₀ (s.setPoints grp points) := by
  refine ⟨h.1.setPoints hsub, ?_⟩
  intro a ha
  obtain ⟨pt, hpt, hstuck⟩ := h.2 a ha
  refine ⟨pt, ?_, hstuck⟩
  by_cases hgrp : a = grp
  · subst hgrp
    rw [points_setPoints_self]
    exact hkept pt hpt hstuck
  · rw [heap_setPoints_of_ne hgrp]
    exact hpt

theorem removalRule_keepsStuck (hs₀ : s₀.Distinct) :
    RemovalRule s₀ (KeepsStuck s₀) (· ∈ s₀.forms) where
  start := hs₀
  trimmed _ h := h.1
  takes s grp x h _ hx hnot := by
    refine h.setPoints (s.pointsWithout_sublist grp x) ?_
    intro pt hpt hstuck
    refine (mem_eraseP_of_neg ?_).mpr hpt
    intro hid
    rw [h.1.formid, decide_eq_true_eq] at hid
    exact hnot (h.1.alwaysDeleted.mpr
      (hstuck.of_formid_eq hs₀ (h.1.forms.subset hx) hid).1)
  loses s x m grp h hx hchildless hm hsupports hget := by
    refine h.setPoints filter_sublist ?_
    intro pt hpt hstuck
    refine mem_filter.mpr ⟨hpt, ?_⟩
    rw [decide_eq_true_eq, h.1.formid]
    intro hid
    obtain ⟨hgrp, hmask⟩ := dtMasksGetFromId_eq_some hget
    have hbase : s₀.IsBase grp :=
      h.1.isBase hs₀ (h.1.forms.subset hgrp) ⟨m, hm, hsupports, hmask.symm⟩
    have hx' := (hstuck.of_formid_eq hs₀ hx hid).2 hbase
    -- but the members of `x` are gone
    obtain ⟨pt', hpt', -⟩ := h.2 x hx'
    rw [hchildless (h.1.cloning.mpr hx'.cloning)] at hpt'
    cases hpt'
  clears s x k m h _ _ _ _ := ⟨h.1.clearMaskId k m, h.2⟩
  drops s x h _ _ _ := ⟨h.1.dropForm _, h.2⟩
  ok_base s m grp h _ _ hget := h.1.forms.subset (dtMasksGetFromId_eq_some hget).1
  ok_child s c h hc _ := h.1.forms.subset hc
  ok_ne_zero x hx := hs₀.ne_zero (mem_formids.mpr ⟨x, hx, rfl⟩)

theorem not_stuck_of_returns (hs : s.Distinct) (hx : x ∈ s.forms) (h : s.Returns none x) :
    ¬ s.Stuck x := by
  intro hstuck
  obtain ⟨n, s', heq⟩ := h
  cases n with
  | zero => cases heq
  | succ n =>
    obtain ⟨s₁, -, hchildren, -⟩ := removeForGood_eq_some.mp heq
    have hchildren := (hchildren.resolve_right fun h => h.1 hstuck.cloning).2
    have hstart : KeepsStuck s s := ⟨Trimmed.refl s, fun a ha => ha.exists_stuckPoint⟩
    obtain ⟨hkeeps, hpoints⟩ := RemovalRule.removeChildren
      ((removalRule_keepsStuck hs).preserved n) hstart hx hchildren
    obtain ⟨pt, hpt, -⟩ := hkeeps.2 x hstuck
    rw [hpoints] at hpt
    cases hpt

end Stuck

section Children

variable {s : MasksDevelop} {a c : Nat}

/-- The loop ends if each turn leaves fewer points and what the next turn needs. -/
theorem children_end {J : MasksDevelop → Prop}
    (hturn : ∀ s child rest, J s → (s.heap a).points = child :: rest →
      ∃ c n s₁, s.dtMasksGetFromId child.formid = some c ∧
        dtMasksFormRemove n s (some a) c = some s₁ ∧ J s₁ ∧
        (s₁.heap a).points.length < (s.heap a).points.length)
    (hs : J s) : ∃ n s', removeChildren (dtMasksFormRemove n) a n s = some s' := by
  generalize hl : (s.heap a).points.length = l
  induction l using Nat.strong_induction_on generalizing s with
  | h l ih =>
    cases hpoints : (s.heap a).points with
    | nil =>
      refine ⟨1, s, ?_⟩
      rw [removeChildren, hpoints]
    | cons child rest =>
      obtain ⟨c, n, s₁, hget, hcall, hs₁, hlt⟩ := hturn s child rest hs hpoints
      obtain ⟨m, s', hrest⟩ := ih _ (hl ▸ hlt) hs₁ rfl
      refine ⟨max n m + 1, s', ?_⟩
      rw [removeChildren, hpoints]
      dsimp only
      rw [hget]
      refine bind_eq_some_iff.mpr ⟨s₁, ?_, ?_⟩
      · exact extended_dtMasksFormRemove (by omega) _ _ _ _ hcall
      · exact (extended_dtMasksFormRemove (by omega)).removeChildren (by omega) hrest

theorem returns_of_children (hclone : s.Cloning a) {n : Nat} {s₁ : MasksDevelop}
    (hchildren : removeChildren (dtMasksFormRemove n) a n s = some s₁) (hs₁ : s₁.Distinct) :
    s.Returns none a := by
  obtain ⟨m, s₂, hloop⟩ := modules_end _ hs₁ le_rfl (s.heap a).formid (range s₁.iop.length)
  refine ⟨max n m + 1, s₂.dropForm (s.heap a).formid, ?_⟩
  refine removeForGood_eq_some.mpr ⟨s₁, s₂, .inl ⟨hclone, ?_⟩, ?_, rfl⟩
  · exact (extended_dtMasksFormRemove (Nat.le_max_left n m)).removeChildren
      (Nat.le_max_left n m) hchildren
  · exact foldlM_mono (fun _ _ _ =>
      (extended_dtMasksFormRemove (Nat.le_max_right n m)).removeFromModule) hloop

/-- A turn for a member that is only taken out of the group. -/
theorem takes_returns (hs : s.Distinct) (hgroup : (s.heap a).isGroup = true)
    (hc : ¬ s.AlwaysDeleted c) (hmem : ∃ pt ∈ (s.heap a).points, pt.formid = (s.heap c).formid) :
    ∃ n s₁, dtMasksFormRemove n s (some a) c = some s₁ ∧
      (s₁.heap a).points.length < (s.heap a).points.length ∧
      (s₁ = s.setPoints a (s.pointsWithout a c) ∨ (s₁.heap a).points = []) := by
  obtain ⟨pt, hpt, hid⟩ := hmem
  have hpos : 0 < (s.heap a).points.length := length_pos_of_mem hpt
  have hlen : (s.pointsWithout a c).length = (s.heap a).points.length - 1 :=
    length_eraseP_of_mem hpt (by simpa using hid)
  have hheap : ((s.setPoints a (s.pointsWithout a c)).heap a).points = s.pointsWithout a c :=
    points_setPoints_self
  by_cases hempty : s.pointsWithout a c = []
  · -- the group has become empty, and is deleted
    have hdistinct : (s.setPoints a (s.pointsWithout a c)).Distinct :=
      ((Trimmed.refl s).setPoints (s.pointsWithout_sublist a c)).distinct hs
    have hreturns : (s.setPoints a (s.pointsWithout a c)).Returns none a :=
      returns_of_childless hdistinct fun _ => hheap.trans hempty
    obtain ⟨n, s₁, hcall⟩ := hreturns
    have hshrinks := (complete_dtMasksFormRemove n _ _ _ _ hdistinct hcall []).1
    have hnil : (s₁.heap a).points = [] := by
      have hsub := hshrinks.points a
      rw [hheap, hempty] at hsub
      exact subset_nil.mp hsub
    refine ⟨n + 1, s₁, ?_, ?_, .inr hnil⟩
    · rw [dtMasksFormRemove_takes _ hgroup hc ⟨pt, hpt, hid⟩, if_pos hempty]
      exact hcall
    · rw [hnil]
      exact hpos
  · refine ⟨1, s.setPoints a (s.pointsWithout a c), ?_, ?_, .inl rfl⟩
    · rw [dtMasksFormRemove_takes _ hgroup hc ⟨pt, hpt, hid⟩, if_neg hempty]
    · rw [hheap]
      omega

/-- A form that is deleted is not found any more. -/
theorem formid_not_mem_of_deleted {n : Nat} {s' : MasksDevelop} (hs : s.Distinct)
    (heq : dtMasksFormRemove n s none c = some s') :
    (s.heap c).formid ∉ s'.formids := by
  cases n with
  | zero => cases heq
  | succ n =>
    obtain ⟨s₁, s₂, hchildren, hloop, rfl⟩ := removeForGood_eq_some.mp heq
    have hcomplete := complete_dtMasksFormRemove n
    have hs₁ : s₁.Distinct := by
      rcases hchildren with ⟨-, hchildren⟩ | ⟨-, rfl⟩
      · have hremoves : s.Removes [] s₁ := hcomplete.removeChildren hs hchildren
        exact hremoves.1.distinct hs
      · exact hs
    obtain ⟨⟨hshrinks, -⟩, -⟩ := @Complete.removeFromModules (dtMasksFormRemove n)
      [(s.heap c).formid] s₁ s₂ _ hcomplete hs₁ mem_cons_self _ hloop
    rw [mem_formids_dropForm (hshrinks.distinct hs₁)]
    exact fun h => h.2 rfl

end Children

/-! ## Groups that are emptied -/

/-- The cloning groups that are deleted with the group `root`. -/
inductive CloneTree (s : MasksDevelop) (root : Nat) : Nat → Prop where
  | root : CloneTree s root root
  | member {a c : Nat} {pt : MasksPointGroup} (htree : CloneTree s root a)
      (hpt : pt ∈ (s.heap a).points) (hget : s.dtMasksGetFromId pt.formid = some c)
      (hclone : s.Cloning c) : CloneTree s root c

/-- A cloning group inside of the cloning group `root` that is no base group has no member that is
one: it could be gone before its turn. -/
def Settled (s : MasksDevelop) (root : Nat) : Prop :=
  s.Cloning root → ∀ a, s.CloneTree root a → a ≠ root → ¬ s.IsBase a →
    ∀ pt ∈ (s.heap a).points, ∀ x, s.dtMasksGetFromId pt.formid = some x → ¬ s.IsBase x

section Emptied

variable {s₀ s : MasksDevelop} {root a c x : Nat}

theorem CloneTree.mem_forms (hroot : root ∈ s₀.forms) (h : s₀.CloneTree root a) : a ∈ s₀.forms := by
  cases h with
  | root => exact hroot
  | member _ _ hget _ => exact (dtMasksGetFromId_eq_some hget).1

theorem CloneTree.cloning (hroot : s₀.Cloning root) (h : s₀.CloneTree root a) : s₀.Cloning a := by
  cases h with
  | root => exact hroot
  | member _ _ _ hclone => exact hclone

theorem CloneTree.not_stuck (hroot : s₀.Cloning root) (hnot : ¬ s₀.Stuck root)
    (h : s₀.CloneTree root a) : ¬ s₀.Stuck a := by
  induction h with
  | root => exact hnot
  | member htree hpt hget _ ih =>
    exact fun hstuck => ih (.nested (htree.cloning hroot) hpt hget hstuck)

/-- Each member of `a` is found: there is none, or `a` is a base group, which loses deleted forms,
or no other call deletes the members. -/
def Emptiable (s₀ s : MasksDevelop) (a : Nat) : Prop :=
  (s.heap a).points = [] ∨
  (a ∈ s.forms ∧ s.IsBase a ∧ ∀ pt ∈ (s.heap a).points, pt.formid ∈ s.formids) ∨
  ∀ pt ∈ (s.heap a).points, ∃ x ∈ s.forms, (s.heap x).formid = pt.formid ∧
    ¬ s₀.AlwaysDeleted x ∧ ¬ s₀.IsBase x

def AllEmptiable (s₀ : MasksDevelop) (root : Nat) (s : MasksDevelop) : Prop :=
  Trimmed s₀ s ∧ ∀ a, s₀.CloneTree root a → Emptiable s₀ s a

theorem Emptiable.mem_formids (h : Emptiable s₀ s a) {pt : MasksPointGroup}
    (hpt : pt ∈ (s.heap a).points) : pt.formid ∈ s.formids := by
  rcases h with hnil | ⟨-, -, hmem⟩ | hplain
  · rw [hnil] at hpt
    cases hpt
  · exact hmem pt hpt
  · obtain ⟨x, hx, hid, -⟩ := hplain pt hpt
    exact MasksDevelop.mem_formids.mpr ⟨x, hx, hid⟩

variable {points : List MasksPointGroup}

theorem Emptiable.setPoints (h : Emptiable s₀ s a) {grp : Nat}
    (hsub : points.Sublist (s.heap grp).points) : Emptiable s₀ (s.setPoints grp points) a := by
  have htrim : Trimmed s (s.setPoints grp points) := (Trimmed.refl s).setPoints hsub
  have hpoints := (htrim.points a).subset
  rcases h with hnil | ⟨hmem, hbase, hexist⟩ | hplain
  · rw [hnil] at hpoints
    exact .inl (subset_nil.mp hpoints)
  · refine .inr (.inl ⟨hmem, ?_, ?_⟩)
    · obtain ⟨m, hm, hsupports, hmask⟩ := hbase
      exact ⟨m, hm, hsupports, hmask.trans formid_setPoints.symm⟩
    · intro pt hpt
      rw [formids_setPoints]
      exact hexist pt (hpoints hpt)
  · refine .inr (.inr fun pt hpt => ?_)
    obtain ⟨x, hx, hid, hplain⟩ := hplain pt (hpoints hpt)
    exact ⟨x, hx, formid_setPoints.trans hid, hplain⟩

theorem mem_set_of_ne {α : Type*} {l : List α} {k : Nat} {b b' d : α} (hk : l[k]? = some b)
    (hmem : b' ∈ l) (hne : b' ≠ b) : b' ∈ l.set k d := by
  obtain ⟨j, hj⟩ := mem_iff_getElem?.mp hmem
  have hjk : k ≠ j := by
    rintro rfl
    exact hne (some.inj (hj.symm.trans hk))
  refine mem_of_getElem? (i := j) ?_
  rw [getElem?_set_ne hjk]
  exact hj

section

variable (hs₀ : s₀.Distinct)
include hs₀

theorem eq_of_formid_eq (htrim : Trimmed s₀ s) (ha : a ∈ s₀.forms) (hx : x ∈ s₀.forms)
    (hid : (s.heap a).formid = (s.heap x).formid) : a = x := by
  rw [htrim.formid, htrim.formid] at hid
  exact inj_on_of_nodup_map hs₀.1 ha hx hid

theorem removalRule_allEmptiable (hroot : root ∈ s₀.forms) (hclone : s₀.Cloning root) :
    RemovalRule s₀ (AllEmptiable s₀ root)
      (fun x => x ∈ s₀.forms ∧ (s₀.AlwaysDeleted x ∨ s₀.IsBase x)) where
  start := hs₀
  trimmed _ h := h.1
  takes s grp x h _ _ _ :=
    ⟨h.1.setPoints (s.pointsWithout_sublist grp x),
      fun a ha => (h.2 a ha).setPoints (s.pointsWithout_sublist grp x)⟩
  loses s x m grp h _ _ _ _ _ :=
    ⟨h.1.setPoints filter_sublist, fun a ha => (h.2 a ha).setPoints filter_sublist⟩
  clears s x k m h hx hchildless hk hmask := by
    refine ⟨h.1.clearMaskId k m, fun a ha => ?_⟩
    rcases h.2 a ha with hnil | ⟨hmem, ⟨m', hm', hsupports, hmask'⟩, hexist⟩ | hplain
    · exact .inl hnil
    · by_cases hax : (s.heap a).formid = (s.heap x).formid
      · -- the group is the one that is being deleted
        have heq := eq_of_formid_eq hs₀ h.1 (ha.mem_forms hroot) hx.1 hax
        exact .inl (heq ▸ hchildless (heq ▸ h.1.cloning.mpr (ha.cloning hclone)))
      · refine .inr (.inl ⟨hmem, ⟨m', ?_, hsupports, hmask'⟩, hexist⟩)
        refine mem_set_of_ne hk hm' ?_
        rintro rfl
        exact hax (hmask'.symm.trans hmask)
    · exact .inr (.inr hplain)
  drops s x h hx hchildless hvisited := by
    have hs := h.1.distinct hs₀
    refine ⟨h.1.dropForm _, fun a ha => ?_⟩
    rcases h.2 a ha with hnil | ⟨hmem, hbase, hexist⟩ | hplain
    · exact .inl hnil
    · by_cases hax : (s.heap a).formid = (s.heap x).formid
      · have heq := eq_of_formid_eq hs₀ h.1 (ha.mem_forms hroot) hx.1 hax
        exact .inl (heq ▸ hchildless (heq ▸ h.1.cloning.mpr (ha.cloning hclone)))
      · refine .inr (.inl ⟨(mem_dropForm hs).mpr ⟨hmem, hax⟩, hbase, fun pt hpt => ?_⟩)
        refine (mem_formids_dropForm hs).mpr ⟨hexist pt hpt, ?_⟩
        obtain ⟨m, hm, hsupports, hmask⟩ := hbase
        obtain ⟨k, hk⟩ := mem_iff_getElem?.mp hm
        exact (hvisited k (List.getElem?_eq_some_iff.mp hk).1 m hk hsupports).2 a hmem hmask.symm
          (h.1.cloning.mpr (ha.cloning hclone)).1 pt hpt
    · refine .inr (.inr fun pt hpt => ?_)
      obtain ⟨y, hy, hid, hdeleted, hbase⟩ := hplain pt hpt
      refine ⟨y, (mem_dropForm hs).mpr ⟨hy, fun hyx => ?_⟩, hid, hdeleted, hbase⟩
      have heq := eq_of_formid_eq hs₀ h.1 (h.1.forms.subset hy) hx.1 hyx
      rcases hx.2 with hx | hx
      · exact hdeleted (heq ▸ hx)
      · exact hbase (heq ▸ hx)
  ok_base s m grp h hm hsupports hget := by
    obtain ⟨hgrp, hmask⟩ := dtMasksGetFromId_eq_some hget
    have hmem := h.1.forms.subset hgrp
    exact ⟨hmem, .inr (h.1.isBase hs₀ hmem ⟨m, hm, hsupports, hmask.symm⟩)⟩
  ok_child s c h hc hdeleted := ⟨h.1.forms.subset hc, .inl (h.1.alwaysDeleted.mp hdeleted)⟩
  ok_ne_zero x hx := hs₀.ne_zero (MasksDevelop.mem_formids.mpr ⟨x, hx.1, rfl⟩)

theorem get_of_trimmed (htrim : Trimmed s₀ s) {id : Int} (hget : s.dtMasksGetFromId id = some c) :
    s₀.dtMasksGetFromId id = some c := by
  obtain ⟨hc, hid⟩ := dtMasksGetFromId_eq_some hget
  rw [← hid, htrim.formid]
  exact dtMasksGetFromId_of_mem hs₀.1 (htrim.forms.subset hc)

theorem CloneTree.contains (hroot : root ∈ s₀.forms) (hclone : s₀.Cloning root)
    (ha : s₀.CloneTree root a) {pt : MasksPointGroup} (hpt : pt ∈ (s₀.heap a).points)
    (hget : s₀.dtMasksGetFromId pt.formid = some c) (hc : s₀.Cloning c) :
    s₀.Contains (s₀.heap a).formid (s₀.heap c).formid := by
  rw [(dtMasksGetFromId_eq_some hget).2]
  refine contains_of_mem (dtMasksGetFromId_of_mem hs₀.1 (ha.mem_forms hroot))
    (ha.cloning hclone).1 hpt ?_
  have hview := groupView_eq_some.mpr ⟨c, hget, hc.1, rfl⟩
  rw [hview]
  exact some_ne_none _

/-- One turn of the loop over the members of a group of the tree, when the groups below it can be
deleted. -/
theorem emptiable_turn (hroot : root ∈ s₀.forms) (hclone : s₀.Cloning root)
    (ha : s₀.CloneTree root a)
    (hbelow : ∀ c, s₀.CloneTree root c → s₀.Contains (s₀.heap a).formid (s₀.heap c).formid →
      ∀ s, AllEmptiable s₀ root s → s.Returns none c) {child : MasksPointGroup}
    {rest : List MasksPointGroup} (hs : AllEmptiable s₀ root s)
    (hpoints : (s.heap a).points = child :: rest) :
    ∃ c n s₁, s.dtMasksGetFromId child.formid = some c ∧
      dtMasksFormRemove n s (some a) c = some s₁ ∧ AllEmptiable s₀ root s₁ ∧
      (s₁.heap a).points.length < (s.heap a).points.length := by
  have hrule := removalRule_allEmptiable hs₀ hroot hclone
  have htrim := hs.1
  have hdistinct := htrim.distinct hs₀
  have hcloning := ha.cloning hclone
  have hgroup : (s.heap a).isGroup = true := (htrim.cloning.mpr hcloning).1
  have hchild : child ∈ (s.heap a).points := hpoints ▸ mem_cons_self
  obtain ⟨c, hget⟩ := exists_dtMasksGetFromId ((hs.2 a ha).mem_formids hchild)
  obtain ⟨hc, hid⟩ := dtMasksGetFromId_eq_some hget
  have hok : a ∈ s₀.forms ∧ (s₀.AlwaysDeleted a ∨ s₀.IsBase a) :=
    ⟨ha.mem_forms hroot, .inl (.inl hcloning.2)⟩
  have hkeeps : ∀ n s₁, dtMasksFormRemove n s (some a) c = some s₁ → AllEmptiable s₀ root s₁ :=
    fun n s₁ hcall => hrule.preserved n s (some a) c s₁ hs (fun h => by cases h)
      (fun g hg => some.inj hg ▸ ⟨hok, hc⟩) hcall
  by_cases hdeleted : s.AlwaysDeleted c
  · -- the member is deleted for good, and the group has lost it
    have hreturns : s.Returns none c := by
      by_cases hcc : s₀.Cloning c
      · have hpt := (htrim.points a).subset hchild
        have hget₀ := get_of_trimmed hs₀ htrim hget
        exact hbelow c (.member ha hpt hget₀ hcc)
          (ha.contains hs₀ hroot hclone hpt hget₀ hcc) s hs
      · exact returns_of_childless hdistinct fun h => absurd (htrim.cloning.mp h) hcc
    obtain ⟨n, s₁, hcall⟩ := hreturns
    have hgone := formid_not_mem_of_deleted hdistinct hcall
    have htrim₁ := trimmed_dtMasksFormRemove hdistinct hc hcall
    cases n with
    | zero => cases hcall
    | succ n =>
      rw [← dtMasksFormRemove_deletes n hgroup hdeleted] at hcall
      have hs₁ := hkeeps _ _ hcall
      refine ⟨c, n + 1, s₁, hget, hcall, hs₁, ?_⟩
      have hsub := htrim₁.points a
      refine lt_of_le_of_ne hsub.length_le fun hlen => ?_
      rw [← hsub.eq_of_length hlen] at hchild
      exact hgone (hid ▸ (hs₁.2 a ha).mem_formids hchild)
  · obtain ⟨n, s₁, hcall, hlt, -⟩ :=
      takes_returns hdistinct hgroup hdeleted ⟨child, hchild, hid.symm⟩
    exact ⟨c, n, s₁, hget, hcall, hkeeps _ _ hcall, hlt⟩

theorem cloneTree_returns (hacyclic : Reasoning.Acyclic s₀.Contains) (hroot : root ∈ s₀.forms)
    (hclone : s₀.Cloning root) (ha : s₀.CloneTree root a) (hs : AllEmptiable s₀ root s) :
    s.Returns none a := by
  obtain ⟨rank, -, hrank⟩ := hacyclic.exists_rank fun _ _ hedge => hedge.mem_formids
  generalize hr : rank (s₀.heap a).formid = r
  induction r using Nat.strong_induction_on generalizing a s with
  | h r ih =>
    have hbelow : ∀ c, s₀.CloneTree root c →
        s₀.Contains (s₀.heap a).formid (s₀.heap c).formid →
        ∀ s, AllEmptiable s₀ root s → s.Returns none c :=
      fun c hc hedge s hs => ih _ (hr ▸ hrank _ _ hedge) hc hs rfl
    obtain ⟨n, s₁, hchildren⟩ := children_end
      (fun s child rest => emptiable_turn hs₀ hroot hclone ha hbelow) hs
    have hremoves : s.Removes [] s₁ :=
      (complete_dtMasksFormRemove n).removeChildren (hs.1.distinct hs₀) hchildren
    exact returns_of_children (hs.1.cloning.mpr (ha.cloning hclone)) hchildren
      (hremoves.1.distinct (hs.1.distinct hs₀))

end

theorem allEmptiable_start (hroot : root ∈ s₀.forms)
    (hclone : s₀.Cloning root) (hbase : s₀.IsBase root) (hnot : ¬ s₀.Stuck root)
    (hsettled : s₀.Settled root) : AllEmptiable s₀ root s₀ := by
  refine ⟨Trimmed.refl s₀, fun a ha => ?_⟩
  have hfree := ha.not_stuck hclone hnot
  have hcloning := ha.cloning hclone
  have hexist : ∀ pt ∈ (s₀.heap a).points, pt.formid ∈ s₀.formids :=
    fun pt hpt => by_contra fun hmissing => hfree (.missing hcloning hpt hmissing)
  by_cases habase : s₀.IsBase a
  · exact .inr (.inl ⟨ha.mem_forms hroot, habase, hexist⟩)
  · have hne : a ≠ root := fun h => habase (h ▸ hbase)
    refine .inr (.inr fun pt hpt => ?_)
    obtain ⟨x, hget⟩ := exists_dtMasksGetFromId (hexist pt hpt)
    obtain ⟨hx, hid⟩ := dtMasksGetFromId_eq_some hget
    exact ⟨x, hx, hid, fun hdeleted => hfree (.noBase hcloning hpt hget hdeleted habase),
      hsettled hclone a ha hne habase pt hpt x hget⟩

def PlainMembers (s : MasksDevelop) (a : Nat) : Prop :=
  ∀ pt ∈ (s.heap a).points, ∃ c, s.dtMasksGetFromId pt.formid = some c ∧ ¬ s.AlwaysDeleted c

theorem PlainMembers.setPoints (h : s.PlainMembers a)
    (hsub : points.Sublist (s.heap a).points) : (s.setPoints a points).PlainMembers a := by
  have htrim : Trimmed s (s.setPoints a points) := (Trimmed.refl s).setPoints hsub
  intro pt hpt
  obtain ⟨c, hget, hplain⟩ := h pt ((htrim.points a).subset hpt)
  exact ⟨c, dtMasksGetFromId_setPoints.trans hget, fun h => hplain (htrim.alwaysDeleted.mp h)⟩

theorem returns_of_plainMembers (hs : s.Distinct) (hclone : s.Cloning a)
    (hplain : s.PlainMembers a) : s.Returns none a := by
  have hturn : ∀ (s : MasksDevelop) child rest,
      (s.Distinct ∧ (s.heap a).isGroup = true ∧ s.PlainMembers a) →
      (s.heap a).points = child :: rest →
      ∃ c n s₁, s.dtMasksGetFromId child.formid = some c ∧
        dtMasksFormRemove n s (some a) c = some s₁ ∧
        (s₁.Distinct ∧ (s₁.heap a).isGroup = true ∧ s₁.PlainMembers a) ∧
        (s₁.heap a).points.length < (s.heap a).points.length := by
    intro s child rest ⟨hs, hgroup, hplain⟩ hpoints
    have hchild : child ∈ (s.heap a).points := hpoints ▸ mem_cons_self
    obtain ⟨c, hget, hc⟩ := hplain child hchild
    obtain ⟨n, s₁, hcall, hlt, hs₁⟩ :=
      takes_returns hs hgroup hc ⟨child, hchild, (dtMasksGetFromId_eq_some hget).2.symm⟩
    have hshrinks := (complete_dtMasksFormRemove n _ _ _ _ hs hcall []).1
    refine ⟨c, n, s₁, hget, hcall, ⟨hshrinks.distinct hs, ?_, ?_⟩, hlt⟩
    · exact (hshrinks.isGroup a).trans hgroup
    · rcases hs₁ with rfl | hnil
      · exact hplain.setPoints (s.pointsWithout_sublist a c)
      · intro pt hpt
        rw [hnil] at hpt
        cases hpt
  obtain ⟨n, s₁, hchildren⟩ := children_end hturn ⟨hs, hclone.1, hplain⟩
  have hremoves : s.Removes [] s₁ := (complete_dtMasksFormRemove n).removeChildren hs hchildren
  exact returns_of_children hclone hchildren (hremoves.1.distinct hs)

/-- The members of a group that is the base group of no module are taken out one by one. -/
theorem plainMembers_of_noBase (hclone : s.Cloning a) (hbase : ¬ s.IsBase a)
    (hnot : ¬ s.Stuck a) : s.PlainMembers a := by
  intro pt hpt
  have hexist : pt.formid ∈ s.formids :=
    by_contra fun hmissing => hnot (.missing hclone hpt hmissing)
  obtain ⟨c, hget⟩ := exists_dtMasksGetFromId hexist
  exact ⟨c, hget, fun hdeleted => hnot (.noBase hclone hpt hget hdeleted hbase)⟩

theorem returns_of_not_stuck (hs : s.Distinct) (hacyclic : Reasoning.Acyclic s.Contains)
    (ha : a ∈ s.forms) (hnot : ¬ s.Stuck a) (hsettled : s.Settled a) : s.Returns none a := by
  by_cases hclone : s.Cloning a
  · by_cases hbase : s.IsBase a
    · exact cloneTree_returns hs hacyclic ha hclone .root
        (allEmptiable_start ha hclone hbase hnot hsettled)
    · exact returns_of_plainMembers hs hclone (plainMembers_of_noBase hclone hbase hnot)
  · exact returns_of_childless hs fun h => absurd h hclone

end Emptied

def Deletes (s : MasksDevelop) (grp : Option Nat) (form : Nat) : Prop :=
  ∀ g, grp = some g → (s.heap g).isGroup = true ∧ s.AlwaysDeleted form

end MasksDevelop

open MasksDevelop

/-- A call returns if the form is not to be deleted for good, or is none of the groups that are
never emptied and has no members that may go before their turn. A call that deletes one of these
groups does not return. -/
theorem dtMasksFormRemove_returns {s : MasksDevelop} (hs : s.Distinct)
    (hacyclic : Reasoning.Acyclic s.Contains) (grp : Option Nat) {form : Nat}
    (hform : form ∈ s.forms) :
    ((s.Deletes grp form → ¬ s.Stuck form ∧ s.Settled form) → s.Returns grp form) ∧
      (s.Returns grp form → s.Deletes grp form → ¬ s.Stuck form) := by
  cases grp with
  | none =>
    refine ⟨fun h => ?_, fun h _ => not_stuck_of_returns hs hform h⟩
    obtain ⟨hnot, hsettled⟩ := h fun g hg => by cases hg
    exact returns_of_not_stuck hs hacyclic hform hnot hsettled
  | some g =>
    rcases dtMasksFormRemove_some_cases s g form with ⟨hgroup, hdeleted⟩ |
        ⟨hgroup, hdeleted, hmem⟩ | hsame
    · have hnone : s.Returns (some g) form ↔ s.Returns none form := by
        constructor
        · rintro ⟨n, s', heq⟩
          cases n with
          | zero => cases heq
          | succ n => exact ⟨n + 1, s', dtMasksFormRemove_deletes n hgroup hdeleted ▸ heq⟩
        · rintro ⟨n, s', heq⟩
          cases n with
          | zero => cases heq
          | succ n => exact ⟨n + 1, s', (dtMasksFormRemove_deletes n hgroup hdeleted).trans heq⟩
      rw [hnone]
      refine ⟨fun h => ?_, fun h _ => not_stuck_of_returns hs hform h⟩
      obtain ⟨hnot, hsettled⟩ := h fun g' hg => some.inj hg ▸ ⟨hgroup, hdeleted⟩
      exact returns_of_not_stuck hs hacyclic hform hnot hsettled
    · obtain ⟨n, s₁, hcall, -⟩ := takes_returns hs hgroup hdeleted hmem
      exact ⟨fun _ => ⟨n, s₁, hcall⟩, fun _ h => absurd (h g rfl).2 hdeleted⟩
    · refine ⟨fun _ => ⟨1, s, dtMasksFormRemove_same 0 hsame⟩, fun _ h => ?_⟩
      obtain ⟨hgroup, hdeleted⟩ := h g rfl
      rcases hsame with hnot | ⟨hnot, -⟩
      · rw [hgroup] at hnot
        cases hnot
      · exact absurd hdeleted hnot

theorem cloningGroup_known : ∀ a ∈ [0, 1], a < 2 := by decide

-- the cloning group 1 with one member, and the circle 2, made for a cloning module
def cloningGroup (member : Int) (iop : List BlendModule) : MasksDevelop where
  heap a :=
    if a = 0 then { formid := 1, type := 12, points := [⟨member, 0, 0⟩] }
    else { formid := 2, type := 9, points := [] }
  forms := [0, 1]
  iop := iop
  next := 2
  known := cloningGroup_known

theorem distinct_cloningGroup (member : Int) (iop : List BlendModule) :
    (cloningGroup member iop).Distinct := by
  have hids : (cloningGroup member iop).formids = [1, 2] := rfl
  unfold Distinct
  rw [hids]
  decide

theorem not_cloning_circle (member : Int) (iop : List BlendModule) :
    ¬ (cloningGroup member iop).Cloning 1 :=
  fun h => absurd h.1 (by change ¬ Nat.testBit 9 2 = true; decide)

theorem acyclic_cloningGroup {member : Int} (hmember : member ≠ 1) (iop : List BlendModule) :
    Acyclic (cloningGroup member iop).Contains := by
  apply acyclic_of_measure fun _ => 0
  rintro i j ⟨l, hview, hj, hgroup⟩
  obtain ⟨a, hget, hagroup, hl⟩ := groupView_eq_some.mp hview
  obtain ⟨l', hview'⟩ := ne_none_iff_exists'.mp hgroup
  obtain ⟨b, hget', hbgroup, -⟩ := groupView_eq_some.mp hview'
  have honly : ∀ c ∈ (cloningGroup member iop).forms,
      ((cloningGroup member iop).heap c).isGroup = true → c = 0 := by
    intro c hc hcgroup
    rcases mem_cons.mp hc with rfl | hc
    · rfl
    · rw [mem_singleton.mp hc] at hcgroup
      exact absurd hcgroup (by change ¬ Nat.testBit 9 2 = true; decide)
  have ha := honly a (dtMasksGetFromId_eq_some hget).1 hagroup
  have hb := honly b (dtMasksGetFromId_eq_some hget').1 hbgroup
  have hid := (dtMasksGetFromId_eq_some hget').2
  rw [hb] at hid
  rw [ha] at hl
  rw [← hl] at hj
  have hjm : j = member := mem_singleton.mp hj
  exact absurd (hjm.symm.trans hid.symm) hmember

/-- With its module, the group is deleted together with the circle. -/
theorem dtMasksFormRemove_returns_based : (cloningGroup 2 [⟨true, 1⟩]).Returns none 0 := by
  refine (dtMasksFormRemove_returns (distinct_cloningGroup 2 _)
    (acyclic_cloningGroup (by decide) _) none (by decide)).1 fun _ => ⟨?_, ?_⟩
  · intro hstuck
    cases hstuck with
    | missing _ hpt hmissing =>
      rw [mem_singleton.mp hpt] at hmissing
      exact hmissing (by decide)
    | noBase _ _ _ _ hbase => exact hbase ⟨_, mem_singleton_self _, rfl, rfl⟩
    | nested _ hpt hget hstuck =>
      rw [mem_singleton.mp hpt] at hget
      cases (show (cloningGroup 2 [⟨true, 1⟩]).dtMasksGetFromId 2 = some 1 from rfl).symm.trans hget
      exact not_cloning_circle 2 _ hstuck.cloning
  · intro _ a htree hne
    cases htree with
    | root => exact absurd rfl hne
    | member _ _ hget hclone =>
      rcases mem_cons.mp (dtMasksGetFromId_eq_some hget).1 with ha | ha
      · exact absurd ha hne
      · rw [mem_singleton.mp ha] at hclone
        exact absurd hclone (not_cloning_circle 2 _)

/-- A cloning group with a member that is gone, and one with a cloning shape that no module uses as
its mask: deleting either of them does not return. -/
theorem removal_hangs :
    ((cloningGroup 99 []).Distinct ∧ Reasoning.Acyclic (cloningGroup 99 []).Contains ∧
      ∀ n, dtMasksFormRemove n (cloningGroup 99 []) none 0 = none) ∧
    ((cloningGroup 2 []).Distinct ∧ Reasoning.Acyclic (cloningGroup 2 []).Contains ∧
      ∀ n, dtMasksFormRemove n (cloningGroup 2 []) none 0 = none) := by
  have hangs : ∀ member, (cloningGroup member []).Stuck 0 →
      ∀ n, dtMasksFormRemove n (cloningGroup member []) none 0 = none := by
    intro member hstuck n
    rw [eq_none_iff_forall_ne_some]
    intro s' heq
    exact not_stuck_of_returns (distinct_cloningGroup member []) (by decide : 0 ∈ [0, 1])
      ⟨n, s', heq⟩ hstuck
  refine ⟨⟨distinct_cloningGroup 99 [], acyclic_cloningGroup (by decide) [], hangs 99 ?_⟩,
    distinct_cloningGroup 2 [], acyclic_cloningGroup (by decide) [], hangs 2 ?_⟩
  · exact .missing ⟨by decide, by decide⟩ (mem_singleton_self _) (by decide)
  · refine .noBase ⟨by decide, by decide⟩ (mem_singleton_self _) rfl (.inl (by decide)) ?_
    rintro ⟨m, hm, -⟩
    cases hm

end DTLite
