import DTLite.Develop.MasksForms

/-!
# Deleting a form

`dt_masks_form_remove` takes a form out of a group, or deletes it for good: then it goes from the
base groups of the modules and from the list of forms.  A group that is left without members is
deleted too.
-/

namespace DTLite

open Reasoning List Option Function

variable (s : MasksDevelop)

namespace MasksDevelop

-- "we drop the form from the general list"
def dropForm (id : Int) : MasksDevelop where
  heap := s.heap
  forms := s.forms.eraseP fun a => (s.heap a).formid = id
  iop := s.iop
  next := s.next
  known a ha := s.known a (mem_of_mem_eraseP ha)

-- `m->blend_params->mask_id = 0` for the module at `k`.
def clearMaskId (k : Nat) (m : BlendModule) : MasksDevelop :=
  { s with iop := s.iop.set k { m with maskId := 0 } }

end MasksDevelop

section Remove

-- A call of `dt_masks_form_remove` inside another one.
variable (remove : MasksDevelop → Option Nat → Nat → Option MasksDevelop)

-- "is the form the base group of the iop ?"
def removeFromModule (id : Int) (s : MasksDevelop) (k : Nat) : Option MasksDevelop :=
  match s.iop[k]? with
  | none => some s
  | some m =>
      if m.supportsBlending = false then some s
      else if id = m.maskId then some (s.clearMaskId k m)
      else
        match s.dtMasksGetFromId m.maskId with
        | none => some s
        | some iopgrp =>
            if (s.heap iopgrp).isGroup = false then some s
            else if (s.heap iopgrp).points.any (·.formid = id) then
              let points := (s.heap iopgrp).points.filter (·.formid ≠ id)
              let s := s.setPoints iopgrp points
              if points = [] then remove s none iopgrp else some s
            else some s

-- The loop over the members of a cloning group. A member that is missing stays.
def removeChildren (form : Nat) : Nat → MasksDevelop → Option MasksDevelop
  | 0, _ => none
  | n + 1, s =>
      match (s.heap form).points with
      | [] => some s
      | child :: _ =>
          match s.dtMasksGetFromId child.formid with
          | none => removeChildren form n s
          | some child => (remove s (some form) child).bind (removeChildren form n)

-- "if we are here that mean we have to permanently delete this form"
def removeForGood (n : Nat) (s : MasksDevelop) (form : Nat) : Option MasksDevelop :=
  let id := (s.heap form).formid
  let cleared := if (s.heap form).isGroup && (s.heap form).isClone then
      removeChildren remove form n s
    else some s
  cleared.bind fun s =>
    ((List.range s.iop.length).foldlM (removeFromModule remove id) s).map (·.dropForm id)

end Remove

/-- `none` if it does not return within `n` calls inside each other and turns of a loop. -/
def dtMasksFormRemove : Nat → MasksDevelop → Option Nat → Nat → Option MasksDevelop
  | 0, _, _, _ => none
  | n + 1, s, none, form => removeForGood (dtMasksFormRemove n) n s form
  | n + 1, s, some grp, form =>
      let id := (s.heap form).formid
      if (s.heap grp).isGroup = false then some s
      else if (s.heap form).isClone || (s.heap form).isNonClone then
        removeForGood (dtMasksFormRemove n) n s form
      -- "we try to remove the form from the masks group"
      else if (s.heap grp).points.any (·.formid = id) then
        let points := (s.heap grp).points.eraseP (·.formid = id)
        let s := s.setPoints grp points
        if points = [] then dtMasksFormRemove n s none grp else some s
      else some s

namespace MasksDevelop

-- a group whose members are deleted with it
def Cloning (a : Nat) : Prop :=
  (s.heap a).isGroup = true ∧ (s.heap a).isClone = true

/-- No group refers to the id, and no module. -/
def Clean (id : Int) : Prop :=
  (∀ a ∈ s.forms, (s.heap a).isGroup = true → ∀ pt ∈ (s.heap a).points, pt.formid ≠ id) ∧
    ∀ m ∈ s.iop, m.maskId ≠ id

/-- No two forms have the same id, and none has the id that stands for no form. -/
def Distinct : Prop := s.formids.Nodup ∧ 0 ∉ s.formids

/-- Every other group that has the form as a member is the base group of a module that supports
blending, and so does every module whose base group it is. -/
def InBaseGroups (id : Int) : Prop :=
  (∀ a ∈ s.forms, (s.heap a).formid ≠ id → (s.heap a).isGroup = true →
    (∃ pt ∈ (s.heap a).points, pt.formid = id) →
    ∃ m ∈ s.iop, m.supportsBlending = true ∧ m.maskId = (s.heap a).formid) ∧
  ∀ m ∈ s.iop, m.maskId = id → m.supportsBlending = true

/-! ## What a deletion leaves

While a form is being deleted its module may have lost it already. `ids` are the ids of the forms
for which this is so. -/

/-- Forms and members only go, and a module only loses a base group that is gone. -/
structure Shrinks (ids : List Int) (s s' : MasksDevelop) : Prop where
  forms : s'.forms.Sublist s.forms
  formid : ∀ a, (s'.heap a).formid = (s.heap a).formid
  type : ∀ a, (s'.heap a).type = (s.heap a).type
  points : ∀ a, (s'.heap a).points ⊆ (s.heap a).points
  length : s'.iop.length = s.iop.length
  iop : ∀ (k : Nat) m m', s.iop[k]? = some m → s'.iop[k]? = some m' →
    m'.supportsBlending = m.supportsBlending ∧
      (m'.maskId = m.maskId ∨ m'.maskId = 0 ∧ m.supportsBlending = true ∧
        (m.maskId ∈ ids ∨ m.maskId ∉ s'.formids))

def CleanBut (ids : List Int) (s : MasksDevelop) (id : Int) : Prop :=
  (∀ a ∈ s.forms, (s.heap a).formid ∉ ids → (s.heap a).isGroup = true →
    ∀ pt ∈ (s.heap a).points, pt.formid ≠ id) ∧
  ∀ m ∈ s.iop, m.maskId ≠ id

def InBaseGroupsBut (ids : List Int) (s : MasksDevelop) (id : Int) : Prop :=
  (∀ a ∈ s.forms, (s.heap a).formid ∉ ids → (s.heap a).formid ≠ id →
    (s.heap a).isGroup = true → (∃ pt ∈ (s.heap a).points, pt.formid = id) →
    ∃ m ∈ s.iop, m.supportsBlending = true ∧ m.maskId = (s.heap a).formid) ∧
  ∀ m ∈ s.iop, m.maskId = id → m.supportsBlending = true

section Shrinks

variable {ids : List Int} {s s' s'' : MasksDevelop} {id : Int}

theorem Shrinks.refl (s : MasksDevelop) : s.Shrinks ids s where
  forms := Sublist.refl _
  formid _ := rfl
  type _ := rfl
  points _ := Subset.refl _
  length := rfl
  iop k m m' hk hk' := by
    cases hk.symm.trans hk'
    exact ⟨rfl, .inl rfl⟩

section

variable (h : s.Shrinks ids s')
include h

theorem Shrinks.isGroup (a : Nat) : (s'.heap a).isGroup = (s.heap a).isGroup :=
  congrArg (Nat.testBit · 2) (h.type a)

theorem Shrinks.formids : s'.formids.Sublist s.formids := by
  have hmap : s'.formids = s'.forms.map fun a => (s.heap a).formid :=
    map_congr_left fun a _ => h.formid a
  rw [hmap]
  exact h.forms.map _

theorem Shrinks.distinct (hs : s.Distinct) : s'.Distinct :=
  ⟨h.formids.nodup hs.1, fun hmem => hs.2 (h.formids.subset hmem)⟩

theorem Shrinks.exists_before {k : Nat} {m' : BlendModule}
    (hk : s'.iop[k]? = some m') : ∃ m, s.iop[k]? = some m := by
  obtain ⟨hlt, -⟩ := List.getElem?_eq_some_iff.mp hk
  exact ⟨_, List.getElem?_eq_getElem (h.length ▸ hlt)⟩

theorem Shrinks.exists_after {k : Nat} {m : BlendModule}
    (hk : s.iop[k]? = some m) : ∃ m', s'.iop[k]? = some m' := by
  obtain ⟨hlt, -⟩ := List.getElem?_eq_some_iff.mp hk
  exact ⟨_, List.getElem?_eq_getElem (h.length.symm ▸ hlt)⟩

theorem Shrinks.trans (h' : s'.Shrinks ids s'') : s.Shrinks ids s'' where
  forms := h'.forms.trans h.forms
  formid a := (h'.formid a).trans (h.formid a)
  type a := (h'.type a).trans (h.type a)
  points a := Subset.trans (h'.points a) (h.points a)
  length := h'.length.trans h.length
  iop k m m'' hk hk'' := by
    obtain ⟨m', hk'⟩ := h.exists_after hk
    obtain ⟨hblend, hmask⟩ := h.iop k m m' hk hk'
    obtain ⟨hblend', hmask'⟩ := h'.iop k m' m'' hk' hk''
    refine ⟨hblend'.trans hblend, ?_⟩
    rcases hmask with hmask | ⟨hzero, hsupports, hgone⟩
    · rw [hmask, hblend] at hmask'
      exact hmask'
    · refine .inr ⟨?_, hsupports, hgone.imp_right fun hnot hmem => hnot (h'.formids.subset hmem)⟩
      rcases hmask' with hmask' | ⟨hzero', -⟩
      · exact hmask'.trans hzero
      · exact hzero'

theorem Shrinks.maskId_eq {m' : BlendModule} (hm : m' ∈ s'.iop) (hne : m'.maskId ≠ 0) :
    ∃ m ∈ s.iop, m.supportsBlending = m'.supportsBlending ∧ m.maskId = m'.maskId := by
  obtain ⟨k, hk'⟩ := mem_iff_getElem?.mp hm
  obtain ⟨m, hk⟩ := h.exists_before hk'
  obtain ⟨hblend, hmask⟩ := h.iop k m m' hk hk'
  refine ⟨m, mem_of_getElem? hk, hblend.symm, ?_⟩
  rcases hmask with hmask | ⟨hzero, -⟩
  · exact hmask.symm
  · exact absurd hzero hne

theorem Shrinks.cleanBut (hid : id ≠ 0) (hclean : s.CleanBut ids id) : s'.CleanBut ids id := by
  constructor
  · intro a ha hnot hgroup pt hpt
    rw [h.formid] at hnot
    rw [h.isGroup] at hgroup
    exact hclean.1 a (h.forms.subset ha) hnot hgroup pt (h.points a hpt)
  · rintro m' hm' rfl
    obtain ⟨m, hm, -, hmask⟩ := h.maskId_eq hm' hid
    exact hclean.2 m hm hmask

theorem Shrinks.inBaseGroupsBut (hid : id ≠ 0)
    (hbase : s.InBaseGroupsBut ids id) : s'.InBaseGroupsBut ids id := by
  constructor
  · rintro a ha hnot hne hgroup ⟨pt, hpt, hptid⟩
    have hmem : (s'.heap a).formid ∈ s'.formids := mem_formids.mpr ⟨a, ha, rfl⟩
    rw [h.formid] at hnot hne hmem
    rw [h.isGroup] at hgroup
    obtain ⟨m, hm, hsupports, hmask⟩ :=
      hbase.1 a (h.forms.subset ha) hnot hne hgroup ⟨pt, h.points a hpt, hptid⟩
    obtain ⟨k, hk⟩ := mem_iff_getElem?.mp hm
    obtain ⟨m', hk'⟩ := h.exists_after hk
    obtain ⟨hblend, hmask'⟩ := h.iop k m m' hk hk'
    refine ⟨m', mem_of_getElem? hk', hblend.trans hsupports, ?_⟩
    rw [h.formid, ← hmask]
    rcases hmask' with hmask' | ⟨-, -, hids | hgone⟩
    · exact hmask'
    · exact absurd (hmask ▸ hids) hnot
    · exact absurd (hmask ▸ hmem) hgone
  · rintro m' hm' rfl
    obtain ⟨m, hm, hblend, hmask⟩ := h.maskId_eq hm' hid
    exact hblend ▸ hbase.2 m hm hmask

end

end Shrinks

/-- What a call does: what was only in base groups is nowhere once it is gone. -/
def Removes (ids : List Int) (s s' : MasksDevelop) : Prop :=
  s.Shrinks ids s' ∧ ∀ id ∈ s.formids, id ∉ s'.formids → s.InBaseGroupsBut ids id →
    s'.CleanBut ids id

section Removes

variable {ids : List Int} {s s' s'' : MasksDevelop} {id : Int}

theorem Distinct.ne_zero (hs : s.Distinct) (hid : id ∈ s.formids) : id ≠ 0 := by
  rintro rfl
  exact hs.2 hid

theorem Shrinks.removes (h : s.Shrinks ids s') (hforms : s'.forms = s.forms) :
    s.Removes ids s' := by
  refine ⟨h, ?_⟩
  intro id hid hnot
  obtain ⟨a, ha, rfl⟩ := mem_formids.mp hid
  exact absurd (mem_formids.mpr ⟨a, hforms ▸ ha, h.formid a⟩) hnot

theorem Removes.trans (hs : s.Distinct) (h : s.Removes ids s') (h' : s'.Removes ids s'') :
    s.Removes ids s'' := by
  refine ⟨h.1.trans h'.1, ?_⟩
  intro id hid hnot hbase
  have hne := hs.ne_zero hid
  by_cases hid' : id ∈ s'.formids
  · exact h'.2 id hid' hnot (h.1.inBaseGroupsBut hne hbase)
  · exact h'.1.cleanBut hne (h.2 id hid hid' hbase)

theorem shrinks_setPoints {grp : Nat} {points : List MasksPointGroup}
    (hsub : points.Sublist (s.heap grp).points) : s.Shrinks ids (s.setPoints grp points) where
  forms := Sublist.refl _
  formid _ := formid_setPoints
  type _ := type_setPoints
  points a := (points_setPoints_sublist hsub).subset
  length := rfl
  iop k m m' hk hk' := by
    cases hk.symm.trans hk'
    exact ⟨rfl, .inl rfl⟩

theorem shrinks_clearMaskId {k : Nat} {m : BlendModule} (hk : s.iop[k]? = some m)
    (hsupports : m.supportsBlending = true) (hid : m.maskId ∈ ids) :
    s.Shrinks ids (s.clearMaskId k m) where
  forms := Sublist.refl _
  formid _ := rfl
  type _ := rfl
  points _ := Subset.refl _
  length := length_set
  iop j m₁ m' hj hj' := by
    have hlt := (List.getElem?_eq_some_iff.mp hk).1
    change (s.iop.set k { m with maskId := 0 })[j]? = some m' at hj'
    by_cases heq : k = j
    · subst heq
      cases hk.symm.trans hj
      rw [getElem?_set_self hlt] at hj'
      cases hj'
      exact ⟨rfl, .inr ⟨rfl, hsupports, .inl hid⟩⟩
    · rw [getElem?_set_ne heq, hj] at hj'
      cases hj'
      exact ⟨rfl, .inl rfl⟩

end Removes

def Visited (id : Int) (s : MasksDevelop) (k : Nat) : Prop :=
  ∀ m, s.iop[k]? = some m → m.supportsBlending = true → m.maskId ≠ id ∧
    ∀ a ∈ s.forms, (s.heap a).formid = m.maskId → (s.heap a).isGroup = true →
      ∀ pt ∈ (s.heap a).points, pt.formid ≠ id

theorem Shrinks.visited {ids : List Int} {s s' : MasksDevelop} (h : s.Shrinks ids s')
    (hs : s.Distinct) {id : Int} (hid : id ≠ 0) {k : Nat} (hvisited : s.Visited id k) :
    s'.Visited id k := by
  intro m' hk' hsupports
  obtain ⟨m, hk⟩ := h.exists_before hk'
  obtain ⟨hblend, hmask⟩ := h.iop k m m' hk hk'
  obtain ⟨hne, hmembers⟩ := hvisited m hk (hblend ▸ hsupports)
  rcases hmask with hmask | ⟨hzero, -⟩
  · refine ⟨hmask ▸ hne, ?_⟩
    intro a ha hformid hgroup pt hpt
    rw [h.formid, hmask] at hformid
    rw [h.isGroup] at hgroup
    exact hmembers a (h.forms.subset ha) hformid hgroup pt (h.points a hpt)
  · rw [hzero]
    refine ⟨hid.symm, ?_⟩
    intro a ha hformid
    exact absurd (mem_formids.mpr ⟨a, ha, hformid⟩) (h.distinct hs).2

/-- The calls inside of a call that keep to what a call does. -/
def Complete (remove : MasksDevelop → Option Nat → Nat → Option MasksDevelop) : Prop :=
  ∀ s grp form s', s.Distinct → remove s grp form = some s' → ∀ ids, s.Removes ids s'

section Calls

variable {remove : MasksDevelop → Option Nat → Nat → Option MasksDevelop} {ids : List Int}
  {s s' : MasksDevelop} {id : Int} {k : Nat}

/-- What a turn of the loop over the modules does.  It calls for nothing but a base group that it
has emptied. -/
theorem removeFromModule_turn (id : Int) (s : MasksDevelop) (k : Nat) :
    ((∀ m, s.iop[k]? = some m → m.supportsBlending = true → m.maskId ≠ id ∧
        ∀ a, s.dtMasksGetFromId m.maskId = some a → (s.heap a).isGroup = true →
          ∀ pt ∈ (s.heap a).points, pt.formid ≠ id) ∧
      ∀ remove, removeFromModule remove id s k = some s) ∨
    (∃ m, s.iop[k]? = some m ∧ m.supportsBlending = true ∧ m.maskId = id ∧
      ∀ remove, removeFromModule remove id s k = some (s.clearMaskId k m)) ∨
    ∃ m grp, s.iop[k]? = some m ∧ m.supportsBlending = true ∧ m.maskId ≠ id ∧
      s.dtMasksGetFromId m.maskId = some grp ∧ (∃ pt ∈ (s.heap grp).points, pt.formid = id) ∧
      ∀ remove, removeFromModule remove id s k =
        if (s.heap grp).points.filter (·.formid ≠ id) = [] then
          remove (s.setPoints grp ((s.heap grp).points.filter (·.formid ≠ id))) none grp
        else some (s.setPoints grp ((s.heap grp).points.filter (·.formid ≠ id))) := by
  unfold removeFromModule
  cases hk : s.iop[k]? with
  | none => exact .inl ⟨nofun, fun _ => rfl⟩
  | some m =>
    cases hsupports : m.supportsBlending with
    | false => exact .inl ⟨by simp [hsupports], by simp [hsupports]⟩
    | true =>
      by_cases hmask : id = m.maskId
      · exact .inr (.inl ⟨m, rfl, hsupports, hmask.symm, by simp [hsupports, hmask]⟩)
      cases hget : s.dtMasksGetFromId m.maskId with
      | none => exact .inl ⟨by simp [hget, Ne.symm hmask], by simp [hsupports, hmask, hget]⟩
      | some grp =>
        by_cases hmember : (s.heap grp).isGroup = true ∧ ∃ pt ∈ (s.heap grp).points, pt.formid = id
        · refine .inr (.inr ⟨m, grp, rfl, hsupports, Ne.symm hmask, hget, hmember.2, ?_⟩)
          simp [hsupports, hmask, hget, hmember.1, hmember.2]
        · have hnone : (s.heap grp).isGroup = true →
              ∀ pt ∈ (s.heap grp).points, pt.formid ≠ id := by
            simpa using hmember
          exact .inl ⟨by simpa [hsupports, hget, Ne.symm hmask] using hnone,
            by simp +contextual [hsupports, hmask, hget, hnone]⟩

theorem Complete.removeFromModule (hremove : Complete remove) (hs : s.Distinct) (hid : id ∈ ids)
    (heq : removeFromModule remove id s k = some s') :
    s.Removes ids s' ∧ (id ≠ 0 → s'.Visited id k) := by
  rcases removeFromModule_turn id s k with ⟨hvisited, hturn⟩ |
      ⟨m, hk, hsupports, hmask, hturn⟩ | ⟨m, grp, hk, hsupports, hmask, hget, -, hturn⟩
  all_goals rw [hturn] at heq
  · cases heq
    refine ⟨(Shrinks.refl s).removes rfl, ?_⟩
    intro _ m hk hsupports
    obtain ⟨hmask, hmembers⟩ := hvisited m hk hsupports
    refine ⟨hmask, ?_⟩
    intro a ha hformid
    exact hmembers a (hformid ▸ dtMasksGetFromId_of_mem hs.1 ha)
  · cases heq
    refine ⟨(shrinks_clearMaskId hk hsupports (hmask ▸ hid)).removes rfl, ?_⟩
    intro hne m' hk' _
    have hlt := (List.getElem?_eq_some_iff.mp hk).1
    change (s.iop.set k { m with maskId := 0 })[k]? = some m' at hk'
    rw [getElem?_set_self hlt] at hk'
    cases hk'
    refine ⟨hne.symm, ?_⟩
    intro a ha hformid
    exact absurd (mem_formids.mpr ⟨a, ha, hformid⟩) hs.2
  · have hshrinks : s.Shrinks ids
        (s.setPoints grp ((s.heap grp).points.filter (·.formid ≠ id))) :=
      shrinks_setPoints filter_sublist
    have hvisited :
        (s.setPoints grp ((s.heap grp).points.filter (·.formid ≠ id))).Visited id k := by
      intro m₁ hk₁ _
      cases hk.symm.trans hk₁
      refine ⟨hmask, ?_⟩
      intro a ha hformid _ pt hpt
      rw [formid_setPoints] at hformid
      have hgrp : a = grp := by
        rw [← hformid, dtMasksGetFromId_of_mem hs.1 ha] at hget
        exact some.inj hget
      rw [hgrp, points_setPoints_self] at hpt
      simpa using (mem_filter.mp hpt).2
    split at heq
    · have hs₁ := hshrinks.distinct hs
      have hcall := hremove _ _ _ _ hs₁ heq ids
      exact ⟨(hshrinks.removes rfl).trans hs hcall,
        fun hne => hcall.1.visited hs₁ hne hvisited⟩
    · cases heq
      exact ⟨hshrinks.removes rfl, fun _ => hvisited⟩

theorem Complete.removeFromModules (hremove : Complete remove) (hs : s.Distinct) (hid : id ∈ ids)
    {ks : List Nat} (heq : ks.foldlM (DTLite.removeFromModule remove id) s = some s') :
    s.Removes ids s' ∧ (id ≠ 0 → ∀ k ∈ ks, s'.Visited id k) := by
  induction ks generalizing s with
  | nil =>
    cases heq
    exact ⟨(Shrinks.refl s').removes rfl, fun _ k hk => by cases hk⟩
  | cons k ks ih =>
    obtain ⟨s₁, hturn, heq⟩ := bind_eq_some_iff.mp heq
    obtain ⟨hremoves, hvisited⟩ := hremove.removeFromModule hs hid hturn
    have hs₁ := hremoves.1.distinct hs
    obtain ⟨hremoves', hrest⟩ := ih hs₁ heq
    refine ⟨hremoves.trans hs hremoves', ?_⟩
    intro hne j hj
    rcases mem_cons.mp hj with rfl | hj
    · exact hremoves'.1.visited hs₁ hne (hvisited hne)
    · exact hrest hne j hj

theorem mem_dropForm {a : Nat} (hs : s.Distinct) :
    a ∈ (s.dropForm id).forms ↔ a ∈ s.forms ∧ (s.heap a).formid ≠ id :=
  mem_eraseP_key_iff hs.1

theorem mem_formids_dropForm {i : Int} (hs : s.Distinct) :
    i ∈ (s.dropForm id).formids ↔ i ∈ s.formids ∧ i ≠ id := by
  rw [mem_formids, mem_formids]
  constructor
  · rintro ⟨a, ha, rfl⟩
    obtain ⟨ha, hne⟩ := (mem_dropForm hs).mp ha
    exact ⟨⟨a, ha, rfl⟩, hne⟩
  · rintro ⟨⟨a, ha, rfl⟩, hne⟩
    exact ⟨a, (mem_dropForm hs).mpr ⟨ha, hne⟩, rfl⟩

theorem Shrinks.dropForm (h : s.Shrinks (id :: ids) s') (hs : s'.Distinct) :
    s.Shrinks ids (s'.dropForm id) where
  __ := h
  forms := eraseP_sublist.trans h.forms
  iop k m m' hk hk' := by
    obtain ⟨hblend, hmask⟩ := h.iop k m m' hk hk'
    refine ⟨hblend, hmask.imp_right ?_⟩
    rintro ⟨hzero, hsupports, hgone⟩
    refine ⟨hzero, hsupports, ?_⟩
    rw [mem_formids_dropForm hs]
    rcases hgone with hids | hgone
    · rcases mem_cons.mp hids with heq | hids
      · exact .inr fun hmem => hmem.2 heq
      · exact .inl hids
    · exact .inr fun hmem => hgone hmem.1

theorem cleanBut_of_visited (hs : s.Distinct) (hbase : s.InBaseGroupsBut (id :: ids) id)
    (hvisited : ∀ k < s.iop.length, s.Visited id k) : (s.dropForm id).CleanBut ids id := by
  have hmem : ∀ m ∈ s.iop, ∃ k < s.iop.length, s.iop[k]? = some m := by
    intro m hm
    obtain ⟨k, hk⟩ := mem_iff_getElem?.mp hm
    exact ⟨k, (List.getElem?_eq_some_iff.mp hk).1, hk⟩
  constructor
  · intro a ha hnot hgroup pt hpt hptid
    obtain ⟨ha, hne⟩ := (mem_dropForm hs).mp ha
    obtain ⟨m, hm, hsupports, hmask⟩ := hbase.1 a ha
      (fun hids => (mem_cons.mp hids).elim hne hnot) hne hgroup ⟨pt, hpt, hptid⟩
    obtain ⟨k, hlt, hk⟩ := hmem m hm
    exact (hvisited k hlt m hk hsupports).2 a ha hmask.symm hgroup pt hpt hptid
  · intro m hm hmask
    obtain ⟨k, hlt, hk⟩ := hmem m hm
    exact (hvisited k hlt m hk (hbase.2 m hm hmask)).1 hmask

theorem Complete.dropForm (hremove : Complete remove) (hs : s.Distinct)
    (heq : (range s.iop.length).foldlM (DTLite.removeFromModule remove id) s = some s') :
    s.Removes ids (s'.dropForm id) := by
  obtain ⟨⟨hshrinks, hcleans⟩, hvisited⟩ :=
    @Complete.removeFromModules remove (id :: ids) s s' id hremove hs mem_cons_self _ heq
  have hs' := hshrinks.distinct hs
  refine ⟨hshrinks.dropForm hs', ?_⟩
  intro i hi hgone hbase
  have hne := hs.ne_zero hi
  have hbase : s.InBaseGroupsBut (id :: ids) i :=
    ⟨fun a ha hnot => hbase.1 a ha fun hids => hnot (mem_cons_of_mem _ hids), hbase.2⟩
  rw [mem_formids_dropForm hs'] at hgone
  by_cases hid : i = id
  · subst hid
    refine cleanBut_of_visited hs' (hshrinks.inBaseGroupsBut hne hbase) ?_
    intro k hk
    exact hvisited hne k (mem_range.mpr (hshrinks.length ▸ hk))
  · obtain ⟨hforms, hiop⟩ := hcleans i hi (fun hmem => hgone ⟨hmem, hid⟩) hbase
    refine ⟨?_, hiop⟩
    intro a ha hnot
    obtain ⟨ha, hformid⟩ := (mem_dropForm hs').mp ha
    exact hforms a ha fun hids => (mem_cons.mp hids).elim hformid hnot

theorem Complete.removeChildren (hremove : Complete remove) {form n : Nat} (hs : s.Distinct)
    (heq : removeChildren remove form n s = some s') : s.Removes ids s' := by
  induction n generalizing s with
  | zero => cases heq
  | succ n ih =>
    rw [DTLite.removeChildren] at heq
    split at heq
    · cases heq
      exact (Shrinks.refl s').removes rfl
    · split at heq
      · exact ih hs heq
      · obtain ⟨s₁, hcall, heq⟩ := bind_eq_some_iff.mp heq
        have hcall := hremove _ _ _ _ hs hcall ids
        exact hcall.trans hs (ih (hcall.1.distinct hs) heq)

theorem removeForGood_eq_some {form n : Nat} : removeForGood remove n s form = some s' ↔ ∃ s₁ s₂,
    (s.Cloning form ∧ removeChildren remove form n s = some s₁ ∨ ¬ s.Cloning form ∧ s₁ = s) ∧
    (range s₁.iop.length).foldlM (removeFromModule remove (s.heap form).formid) s₁ =
      some s₂ ∧ s₂.dropForm (s.heap form).formid = s' := by
  have hclone : s.Cloning form ↔ ((s.heap form).isGroup && (s.heap form).isClone) = true :=
    Bool.and_eq_true_iff.symm
  rw [removeForGood, hclone]
  by_cases h : ((s.heap form).isGroup && (s.heap form).isClone) = true
  · simp [h, bind_eq_some_iff]
  · simp [h]

theorem Complete.removeForGood (hremove : Complete remove) {form n : Nat} (hs : s.Distinct)
    (heq : removeForGood remove n s form = some s') : s.Removes ids s' := by
  obtain ⟨s₁, s₂, hchildren, hloop, rfl⟩ := removeForGood_eq_some.mp heq
  have hfirst : s.Removes ids s₁ := by
    rcases hchildren with ⟨-, hchildren⟩ | ⟨-, rfl⟩
    · exact hremove.removeChildren hs hchildren
    · exact (Shrinks.refl s₁).removes rfl
  exact hfirst.trans hs (hremove.dropForm (hfirst.1.distinct hs) hloop)

theorem complete_dtMasksFormRemove (n : Nat) : Complete (dtMasksFormRemove n) := by
  induction n with
  | zero =>
    intro s grp form s' _ heq
    cases heq
  | succ n ih =>
    intro s grp form s' hs heq ids
    cases grp with
    | none => exact ih.removeForGood hs heq
    | some grp =>
      have hsame : s.Removes ids s := (Shrinks.refl s).removes rfl
      rw [dtMasksFormRemove] at heq
      dsimp only at heq
      split at heq
      · cases heq
        exact hsame
      split at heq
      · exact ih.removeForGood hs heq
      split at heq
      · have hshrinks : s.Shrinks ids (s.setPoints grp
            ((s.heap grp).points.eraseP (·.formid = (s.heap form).formid))) :=
          shrinks_setPoints eraseP_sublist
        split at heq
        · exact (hshrinks.removes rfl).trans hs (ih _ _ _ _ (hshrinks.distinct hs) heq ids)
        · cases heq
          exact hshrinks.removes rfl
      · cases heq
        exact hsame

end Calls

/-! ## What a deletion does not touch -/

def IsBase (a : Nat) : Prop :=
  ∃ m ∈ s.iop, m.supportsBlending = true ∧ m.maskId = (s.heap a).formid

def Keeps (s' : MasksDevelop) (a : Nat) : Prop := a ∈ s'.forms ∧ s'.heap a = s.heap a

section Keeps

variable {remove : MasksDevelop → Option Nat → Nat → Option MasksDevelop}
  {s s' : MasksDevelop} {id : Int} {a : Nat}

theorem Shrinks.isBase {ids : List Int} (h : s.Shrinks ids s') (hs : s.Distinct)
    (ha : a ∈ s.forms) (hbase : s'.IsBase a) : s.IsBase a := by
  obtain ⟨m', hm', hsupports, hmask⟩ := hbase
  rw [h.formid] at hmask
  have hne := hs.ne_zero (mem_formids.mpr ⟨a, ha, rfl⟩)
  obtain ⟨m, hm, hblend, hmask'⟩ := h.maskId_eq hm' (hmask ▸ hne)
  exact ⟨m, hm, hblend.trans hsupports, hmask'.trans hmask⟩

/-- A form that is deleted takes nothing with it, and only base groups lose it. -/
def KeepsOthers (remove : MasksDevelop → Option Nat → Nat → Option MasksDevelop) : Prop :=
  ∀ s form s', s.Distinct →
    (s.heap form).isGroup = false ∨ (s.heap form).isClone = false ∨ (s.heap form).points = [] →
    remove s none form = some s' →
    ∀ a ∈ s.forms, ¬ s.IsBase a → (s.heap a).formid ≠ (s.heap form).formid → s.Keeps s' a

theorem KeepsOthers.removeFromModule (hkeeps : KeepsOthers remove) (hs : s.Distinct) {k : Nat}
    (heq : removeFromModule remove id s k = some s') (ha : a ∈ s.forms) (hbase : ¬ s.IsBase a) :
    s.Keeps s' a := by
  rcases removeFromModule_turn id s k with ⟨-, hturn⟩ | ⟨m, -, -, -, hturn⟩ |
      ⟨m, grp, hk, hsupports, -, hget, -, hturn⟩
  all_goals rw [hturn] at heq
  · cases heq
    exact ⟨ha, rfl⟩
  · cases heq
    exact ⟨ha, rfl⟩
  · have hgrp : (s.heap a).formid ≠ (s.heap grp).formid := by
      intro heq
      exact hbase ⟨m, mem_of_getElem? hk, hsupports,
        (dtMasksGetFromId_eq_some hget).2.symm.trans heq.symm⟩
    have hne : a ≠ grp := fun heq => hgrp (heq ▸ rfl)
    have hheap : (s.setPoints grp ((s.heap grp).points.filter (·.formid ≠ id))).heap a =
        s.heap a := update_of_ne hne _ _
    split at heq
    next hempty =>
      have hshrinks : s.Shrinks []
          (s.setPoints grp ((s.heap grp).points.filter (·.formid ≠ id))) :=
        shrinks_setPoints filter_sublist
      have hpoints : ((s.setPoints grp ((s.heap grp).points.filter (·.formid ≠ id))).heap
          grp).points = [] := points_setPoints_self.trans hempty
      obtain ⟨hmem, hsame⟩ := hkeeps _ _ _ (hshrinks.distinct hs) (.inr (.inr hpoints)) heq a ha
        (fun hbase' => hbase (hshrinks.isBase hs ha hbase'))
        (by rwa [formid_setPoints, formid_setPoints])
      exact ⟨hmem, hsame.trans hheap⟩
    · cases heq
      exact ⟨ha, hheap⟩

theorem KeepsOthers.removeFromModules (hkeeps : KeepsOthers remove) (hremove : Complete remove)
    (hs : s.Distinct) {ks : List Nat}
    (heq : ks.foldlM (DTLite.removeFromModule remove id) s = some s') (ha : a ∈ s.forms)
    (hbase : ¬ s.IsBase a) : s.Keeps s' a := by
  induction ks generalizing s with
  | nil =>
    cases heq
    exact ⟨ha, rfl⟩
  | cons k ks ih =>
    obtain ⟨s₁, hturn, heq⟩ := bind_eq_some_iff.mp heq
    obtain ⟨hmem, hheap⟩ := hkeeps.removeFromModule hs hturn ha hbase
    obtain ⟨⟨hshrinks, -⟩, -⟩ :=
      @Complete.removeFromModule remove [id] s s₁ id k hremove hs mem_cons_self hturn
    obtain ⟨hmem', hheap'⟩ := ih (hshrinks.distinct hs) heq hmem
      fun hbase' => hbase (hshrinks.isBase hs ha hbase')
    exact ⟨hmem', hheap'.trans hheap⟩

theorem keepsOthers_dtMasksFormRemove (n : Nat) : KeepsOthers (dtMasksFormRemove n) := by
  induction n with
  | zero =>
    intro s form s' _ _ heq
    cases heq
  | succ n ih =>
    intro s form s' hs hform heq a ha hbase hne
    obtain ⟨s₁, s₂, hchildren, hloop, rfl⟩ := removeForGood_eq_some.mp heq
    -- there are no children
    have hsame : s₁ = s := by
      rcases hchildren with ⟨hclone, hchildren⟩ | ⟨-, hsame⟩
      · rw [hclone.1, hclone.2] at hform
        cases n with
        | zero => cases hchildren
        | succ n =>
          rw [removeChildren, hform.resolve_left (by decide) |>.resolve_left (by decide)]
            at hchildren
          exact (some.inj hchildren).symm
      · exact hsame
    subst hsame
    obtain ⟨hmem, hheap⟩ := ih.removeFromModules (complete_dtMasksFormRemove n) hs hloop ha hbase
    obtain ⟨⟨hshrinks, -⟩, -⟩ := @Complete.removeFromModules (dtMasksFormRemove n) [_] s₁ s₂ _
      (complete_dtMasksFormRemove n) hs mem_cons_self _ hloop
    refine ⟨(mem_dropForm (hshrinks.distinct hs)).mpr ⟨hmem, ?_⟩, hheap⟩
    rwa [hheap]

end Keeps

end MasksDevelop

open MasksDevelop

/-- A form that was only in base groups is nowhere once it is deleted. Where the form to delete is
no cloning group, only such a form is. -/
theorem dtMasksFormRemove_clean {n form : Nat} {grp : Option Nat} {s s' : MasksDevelop}
    (hremove : dtMasksFormRemove n s grp form = some s') :
    (∀ id ∈ s.formids, id ∉ s'.formids → s.Distinct → s.InBaseGroups id → s'.Clean id) ∧
    (grp = none → (s.heap form).isGroup = false ∨ (s.heap form).isClone = false → s.Distinct →
      s'.Clean (s.heap form).formid → s.InBaseGroups (s.heap form).formid) := by
  constructor
  · intro id hid hgone hs hbase
    obtain ⟨-, hcleans⟩ := complete_dtMasksFormRemove n s grp form s' hs hremove []
    obtain ⟨hforms, hiop⟩ := hcleans id hid hgone ⟨fun a ha _ => hbase.1 a ha, hbase.2⟩
    exact ⟨fun a ha => hforms a ha not_mem_nil, hiop⟩
  · rintro rfl hform hs ⟨hforms, hiop⟩
    constructor
    · rintro a ha hne hgroup ⟨pt, hpt, hptid⟩
      by_contra hbase
      obtain ⟨hmem, hheap⟩ := keepsOthers_dtMasksFormRemove n s form s' hs
        (hform.imp_right .inl) hremove a ha hbase hne
      rw [← hheap] at hgroup hpt
      exact hforms a hmem hgroup pt hpt hptid
    · intro m hm hmask
      by_contra hsupports
      obtain ⟨hshrinks, -⟩ := complete_dtMasksFormRemove n s none form s' hs hremove []
      obtain ⟨k, hk⟩ := mem_iff_getElem?.mp hm
      obtain ⟨m', hk'⟩ := hshrinks.exists_after hk
      rcases (hshrinks.iop k m m' hk hk').2 with hsame | ⟨-, hblend, -⟩
      · exact hiop m' (mem_of_getElem? hk') (hsame.trans hmask)
      · exact hsupports hblend

theorem dtMasksFormRemove_shrinks (n : Nat) (calls : List (Option Nat × Nat)) {s s' : MasksDevelop}
    (hs : s.Distinct)
    (hrun : calls.foldlM (fun s c => dtMasksFormRemove n s c.1 c.2) s = some s') :
    s.Shrinks [] s' := by
  induction calls generalizing s with
  | nil =>
    cases hrun
    exact Shrinks.refl _
  | cons c calls ih =>
    obtain ⟨s₁, hcall, hrest⟩ := Option.bind_eq_some_iff.mp hrun
    have hshrinks := (complete_dtMasksFormRemove n _ _ _ _ hs hcall []).1
    exact hshrinks.trans (ih (hshrinks.distinct hs) hrest)

section Examples

def circleInBaseGroup : MasksDevelop where
  heap a := if a = 1 then ⟨1, 1, []⟩ else ⟨2, 4, [⟨1, 2, 3⟩]⟩
  forms := [1, 2]
  iop := [⟨true, 2⟩]
  next := 3
  known := by decide

-- The group goes with its only member.
theorem circleInBaseGroup_clean : ∃ s', dtMasksFormRemove 3 circleInBaseGroup none 1 = some s' ∧
    s'.forms = [] ∧ s'.Clean 1 :=
  ⟨_, rfl, by decide, (@dtMasksFormRemove_clean 3 1 none circleInBaseGroup _ rfl).1 1 (by decide)
    (by decide) ⟨by decide, by decide⟩ ⟨by decide, by decide⟩⟩

def circleInNestedGroup : MasksDevelop where
  heap a := if a = 0 then ⟨1, 1, []⟩ else if a = 1 then ⟨2, 4, [⟨1, 2, 3⟩]⟩ else ⟨3, 4, [⟨2, 3, 3⟩]⟩
  forms := [0, 1, 2]
  iop := [⟨true, 3⟩]
  next := 3
  known := by decide

/-- The circle is gone and still a member of the group. -/
theorem circleInNestedGroup_not_clean :
    (∀ a ∈ circleInNestedGroup.forms, (circleInNestedGroup.heap a).isGroup = true →
      ∀ pt ∈ (circleInNestedGroup.heap a).points, pt.formid ∈ circleInNestedGroup.formids) ∧
    ∃ s', dtMasksFormRemove 3 circleInNestedGroup none 0 = some s' ∧ s'.forms = [1, 2] ∧
      1 ∉ s'.formids ∧ ¬ s'.Clean 1 := by
  refine ⟨by decide, _, rfl, by decide, by decide, ?_⟩
  intro hclean
  exact hclean.1 1 (by decide) (by decide) ⟨1, 2, 3⟩ (by decide) rfl

theorem circleInNestedGroup_shrinks : ∃ s',
    [(none, 0), (none, 2)].foldlM (fun s c => dtMasksFormRemove 4 s c.1 c.2)
      circleInNestedGroup = some s' ∧ circleInNestedGroup.Shrinks [] s' :=
  ⟨_, rfl, dtMasksFormRemove_shrinks 4 [(none, 0), (none, 2)] ⟨by decide, by decide⟩ rfl⟩

end Examples

end DTLite
