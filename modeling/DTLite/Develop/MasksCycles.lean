import DTLite.Develop.MasksForms
import DTLite.Reasoning.Acyclic
import DTLite.Reasoning.Counting
import DTLite.Reasoning.Runs

/-!
# Groups without cycles

The forms as a graph of ids.  A new form has an id that no other form has, and a group is only
added to a group that it does not lead to.
-/

namespace DTLite

open Reasoning Relation List Option Function DrawnForm MasksDevelop

def DrawnForm.members (f : DrawnForm) : Option (List Int) :=
  if f.isGroup then some (f.points.map MasksPointGroup.formid) else none

namespace MasksDevelop

variable (s : MasksDevelop)

/-- The members of the group that an id stands for. -/
def groupView (i : Int) : Option (List Int) :=
  (s.dtMasksGetFromId i).bind fun a => (s.heap a).members

/-- The group with the id `i` has the group with the id `j` as a member. -/
def Contains (i j : Int) : Prop :=
  ∃ l, s.groupView i = some l ∧ j ∈ l ∧ s.groupView j ≠ none

-- The walks from a form to a group, within `n` steps.
def pathsTo : Nat → Nat → Int → Nat
  | 0, _, _ => 0
  | n + 1, grp, formid =>
      if (s.heap grp).isGroup = false then 0
      else if (s.heap grp).formid = formid then 1
      else total (fun pt =>
        (s.dtMasksGetFromId pt.formid).elim 0 fun form => pathsTo n form formid) (s.heap grp).points

/-- No group contains itself, and the walks over the groups come to an end. -/
def Acyclic : Prop :=
  Reasoning.Acyclic s.Contains ∧
    ∀ a ∈ s.forms, (∀ formid, ∃ n, (findInGroup s n a formid).isSome) ∧
      ∀ dest, ∃ n, (dtMasksGroupUngroup s n dest a).isSome

end MasksDevelop

/-- A copy refers to no missing form, a new group has an id of its own, and a group that is added
does not lead to the other one in too many ways. -/
def MasksEvent.Safe (ids : Nat → Int) (s : MasksDevelop) : MasksEvent → Prop
  | .shape _ _ _ => True
  | .duplicate _ => ∀ a ∈ s.forms, (s.heap a).isGroup = true →
      ∀ pt ∈ (s.heap a).points, pt.formid ∈ s.formids
  | .group selection => ids s.next ∉ s.formids ∧ ids s.next ∉ selection ∧
      ∀ a ∈ s.forms, ∀ pt ∈ (s.heap a).points, pt.formid ≠ ids s.next
  | .addForm grp form => s.pathsTo (depth s) form (s.heap grp).formid < 2147483648

instance (ids : Nat → Int) (s : MasksDevelop) (e : MasksEvent) : Decidable (e.Safe ids s) :=
  match e with
  | .shape _ _ _ => isTrue trivial
  | .duplicate _ => inferInstanceAs (Decidable (∀ a ∈ _, _ → _))
  | .group _ => inferInstanceAs (Decidable (_ ∧ _ ∧ ∀ a ∈ _, _))
  | .addForm .. => inferInstanceAs (Decidable (_ < _))

variable {pt : MasksPointGroup}

namespace MasksDevelop

variable {s : MasksDevelop} {i : Int} {a : Nat}

theorem groupView_eq_some {l : List Int} : s.groupView i = some l ↔
    ∃ a, s.dtMasksGetFromId i = some a ∧ (s.heap a).isGroup = true ∧
      (s.heap a).points.map MasksPointGroup.formid = l := by
  simp [groupView, bind_eq_some_iff, members]

theorem Contains.mem_formids {j : Int} (h : s.Contains i j) : j ∈ s.formids := by
  obtain ⟨l, -, -, hview⟩ := h
  by_contra hnot
  rw [groupView, dtMasksGetFromId_eq_none.mpr hnot] at hview
  exact hview rfl

section Append

variable {form : DrawnForm}

theorem groupView_append (hnew : form.formid ∉ s.formids) :
    (s.append form).groupView = update s.groupView form.formid form.members := by
  funext i
  rw [groupView, dtMasksGetFromId_append hnew]
  by_cases hi : i = form.formid
  · rw [if_pos hi, hi, update_self, bind_some, heap_append_next]
  · rw [if_neg hi, update_of_ne hi, groupView]
    cases hget : s.dtMasksGetFromId i with
    | none => rfl
    | some a => rw [bind_some, bind_some, heap_append (dtMasksGetFromId_eq_some hget).1]

end Append

section AddPoint

variable {grp : Nat} {pt : MasksPointGroup}

theorem groupView_addPoint : (s.addPoint grp pt).groupView i =
    if s.dtMasksGetFromId i = some grp then (s.groupView i).map (· ++ [pt.formid])
    else s.groupView i := by
  rw [groupView, addPoint, dtMasksGetFromId_setPoints, groupView]
  cases hget : s.dtMasksGetFromId i with
  | none => rfl
  | some a =>
    rw [bind_some, bind_some]
    by_cases ha : a = grp
    · subst ha
      rw [if_pos rfl, setPoints]
      dsimp only
      rw [update_self, members, members, isGroup, isGroup, map_append, map_singleton]
      by_cases hgroup : (s.heap a).type.testBit 2 = true
      · rw [if_pos hgroup, if_pos hgroup, map_some]
      · rw [if_neg hgroup, if_neg hgroup, map_none]
    · rw [if_neg (by simpa using ha), setPoints]
      simp only [update_of_ne ha]

theorem groupView_addPoint_eq_none :
    (s.addPoint grp pt).groupView i = none ↔ s.groupView i = none := by
  rw [groupView_addPoint]
  split
  · exact map_eq_none_iff
  · rfl

theorem contains_addPoint {j : Int} (h : (s.addPoint grp pt).Contains i j) :
    s.Contains i j ∨
      s.dtMasksGetFromId i = some grp ∧ j = pt.formid ∧ s.groupView pt.formid ≠ none := by
  obtain ⟨l, hl, hj, hview⟩ := h
  rw [ne_eq, groupView_addPoint_eq_none] at hview
  rw [groupView_addPoint] at hl
  split at hl
  next hget =>
    obtain ⟨l, hl', rfl⟩ := map_eq_some_iff.mp hl
    rcases mem_append.mp hj with hj | hj
    · exact .inl ⟨l, hl', hj, hview⟩
    · rw [mem_singleton] at hj
      exact .inr ⟨hget, hj, hj ▸ hview⟩
  next => exact .inl ⟨l, hl, hj, hview⟩

end AddPoint

theorem mem_of_checkIdLoop_mem {n : Nat} {nid formid : Int}
    (h : checkIdLoop s n nid formid ∈ s.formids) :
    (0 < n → formid ∈ s.formids) ∧ ∀ k : Nat, k + 1 < n → nid + k ∈ s.formids := by
  induction n generalizing nid formid with
  | zero => exact ⟨fun h => absurd h (Nat.lt_irrefl 0), fun _ h => absurd h (Nat.not_lt_zero _)⟩
  | succ n ih =>
    rw [checkIdLoop] at h
    by_cases hmem : formid ∈ s.formids
    · rw [if_pos hmem] at h
      obtain ⟨hfirst, hrest⟩ := ih h
      refine ⟨fun _ => hmem, ?_⟩
      intro k hk
      cases k with
      | zero => simpa using hfirst (by omega)
      | succ k =>
        have := hrest k (by omega)
        rwa [Int.add_assoc, Int.add_comm 1] at this
    · rw [if_neg hmem] at h
      exact absurd h hmem

theorem formid_checkId_not_mem (s : MasksDevelop) (form : DrawnForm) :
    (checkId s form).formid ∉ s.formids := by
  intro h
  obtain ⟨-, hall⟩ := mem_of_checkIdLoop_mem h
  obtain ⟨k, hk, hnot⟩ := @exists_lt_not_mem Int s.formids (fun k => 100 + k)
    (fun a b hab => by dsimp only at hab; omega) (s.forms.length + 1) (by simp [formids])
  exact hnot (hall k (by omega))

/-! ## Walks -/

theorem foldlM_isSome {α β : Type} {f : β → α → Option β} {l : List α}
    (h : ∀ b, ∀ x ∈ l, (f b x).isSome) (b : β) : (l.foldlM f b).isSome := by
  induction l generalizing b with
  | nil => rfl
  | cons x l ih =>
    obtain ⟨b', hb'⟩ := isSome_iff_exists.mp (h b x mem_cons_self)
    rw [foldlM_cons, hb']
    exact ih (fun b y hy => h b y (mem_cons_of_mem _ hy)) b'

theorem foldlM_count {α : Type} {f : Int32 → α → Option Int32} {count : α → Nat} {l : List α}
    (h : ∀ nb x nb', f nb x = some nb' → nb' = nb + Int32.ofNat (count x)) {nb nb' : Int32}
    (hloop : l.foldlM f nb = some nb') : nb' = nb + Int32.ofNat (total count l) := by
  induction l generalizing nb with
  | nil => exact (some.inj hloop).symm.trans (Int32.add_zero nb).symm
  | cons x l ih =>
    obtain ⟨next, hnext, hloop⟩ := bind_eq_some_iff.mp hloop
    rw [ih hloop, h _ _ _ hnext, total_cons, Int32.ofNat_add, Int32.add_assoc]

theorem groupView_ne_none (hget : s.dtMasksGetFromId i = some a)
    (hgroup : (s.heap a).isGroup = true) : s.groupView i ≠ none := by
  rw [groupView, hget, bind_some, members, if_pos hgroup]
  exact some_ne_none _

theorem exists_of_groupView_ne_none (h : s.groupView i ≠ none) :
    ∃ a, s.dtMasksGetFromId i = some a ∧ (s.heap a).isGroup = true := by
  obtain ⟨l, hl⟩ := ne_none_iff_exists'.mp h
  obtain ⟨a, hget, hgroup, -⟩ := groupView_eq_some.mp hl
  exact ⟨a, hget, hgroup⟩

theorem contains_of_mem (hget : s.dtMasksGetFromId i = some a) (hgroup : (s.heap a).isGroup = true)
    (hpt : pt ∈ (s.heap a).points) (hview : s.groupView pt.formid ≠ none) :
    s.Contains i pt.formid :=
  ⟨_, groupView_eq_some.mpr ⟨a, hget, hgroup, rfl⟩, mem_map_of_mem hpt, hview⟩

/-- A walk over the form at `a` comes to an end within `n` calls. -/
def Shallow (s : MasksDevelop) (rank : Int → Nat) (n a : Nat) : Prop :=
  0 < n ∧ ∀ pt ∈ (s.heap a).points, s.groupView pt.formid ≠ none → rank pt.formid + 1 < n

section Walks

variable {rank : Int → Nat} {n : Nat}

theorem Shallow.member (hrank : ∀ i j, s.Contains i j → rank j < rank i)
    (h : s.Shallow rank (n + 1) a) (hpt : pt ∈ (s.heap a).points) {g : Nat}
    (hget : s.dtMasksGetFromId pt.formid = some g) (hgroup : (s.heap g).isGroup = true) :
    s.Shallow rank n g := by
  have hlt := h.2 pt hpt (groupView_ne_none hget hgroup)
  refine ⟨by omega, ?_⟩
  intro pt' hpt' hview
  have := hrank _ _ (contains_of_mem hget hgroup hpt' hview)
  omega

theorem shallow_depth (hrank : ∀ i, rank i ≤ s.formids.length) : s.Shallow rank (depth s) a := by
  refine ⟨Nat.succ_pos _, ?_⟩
  intro pt _ _
  have := hrank pt.formid
  rw [formids, length_map] at this
  rw [depth]
  omega

section

variable (hrank : ∀ i j, s.Contains i j → rank j < rank i)
include hrank

theorem Shallow.findInGroup_isSome
    (h : s.Shallow rank n a) (formid : Int) : (findInGroup s n a formid).isSome := by
  induction n generalizing a with
  | zero => cases h.1
  | succ n ih =>
    rw [findInGroup]
    split
    · rfl
    split
    · rfl
    apply foldlM_isSome
    intro nb pt hpt
    split
    next g hget =>
      split
      next hgroup =>
        rw [isSome_map]
        exact ih (h.member hrank hpt hget hgroup)
      · rfl
    · rfl

theorem Shallow.dtMasksGroupUngroup_isSome (h : s.Shallow rank n a) (dest : List MasksPointGroup) :
    (dtMasksGroupUngroup s n dest a).isSome := by
  induction n generalizing a dest with
  | zero => cases h.1
  | succ n ih =>
    rw [dtMasksGroupUngroup]
    split
    · rfl
    apply foldlM_isSome
    intro dest pt hpt
    split
    next g hget =>
      split
      next hgroup => exact ih (h.member hrank hpt hget hgroup) dest
      · rfl
    · rfl

end

theorem pathsTo_of_not_group (h : (s.heap a).isGroup = false) (formid : Int) :
    s.pathsTo n a formid = 0 := by
  cases n with
  | zero => rfl
  | succ n => rw [pathsTo, if_pos h]

theorem findInGroup_eq {formid : Int} {nb : Int32} (h : findInGroup s n a formid = some nb) :
    nb = Int32.ofNat (s.pathsTo n a formid) := by
  induction n generalizing a nb with
  | zero => cases h
  | succ n ih =>
    rw [findInGroup] at h
    rw [pathsTo]
    split at h
    next hgroup =>
      rw [if_pos hgroup]
      exact (some.inj h).symm
    next hgroup =>
      rw [if_neg hgroup]
      split at h
      next hid =>
        rw [if_pos hid]
        exact (some.inj h).symm
      next hid =>
        rw [if_neg hid]
        rw [← Int32.zero_add (Int32.ofNat _)]
        refine foldlM_count ?_ h
        intro nb pt nb' hstep
        split at hstep
        next form hget =>
          rw [hget, elim_some]
          split at hstep
          next hmember =>
            obtain ⟨found, hfound, rfl⟩ := map_eq_some_iff.mp hstep
            rw [ih hfound]
          next hmember =>
            rw [pathsTo_of_not_group (by simpa using hmember)]
            exact (some.inj hstep).symm.trans (Int32.add_zero nb).symm
        next hget =>
          rw [hget]
          exact (some.inj hstep).symm.trans (Int32.add_zero nb).symm

theorem Shallow.pathsTo_pos (hrank : ∀ i j, s.Contains i j → rank j < rank i)
    (h : s.Shallow rank n a) {t : Int} (hgroup : (s.heap a).isGroup = true)
    (hget : s.dtMasksGetFromId (s.heap a).formid = some a)
    (hpath : ReflTransGen s.Contains (s.heap a).formid t) : 0 < s.pathsTo n a t := by
  induction n generalizing a with
  | zero => cases h.1
  | succ n ih =>
    rw [pathsTo, if_neg (by simpa using hgroup)]
    rcases hpath.cases_head with heq | ⟨j, hedge, hpath⟩
    · rw [if_pos heq]
      exact Nat.one_pos
    · split
      · exact Nat.one_pos
      obtain ⟨l, hl, hj, hview⟩ := hedge
      obtain ⟨a', hget', -, rfl⟩ := groupView_eq_some.mp hl
      cases hget.symm.trans hget'
      obtain ⟨pt, hpt, rfl⟩ := mem_map.mp hj
      obtain ⟨g, hg, hgroup'⟩ := exists_of_groupView_ne_none hview
      have hid := (dtMasksGetFromId_eq_some hg).2
      rw [← hid] at hpath
      have hpos := ih (h.member hrank hpt hg hgroup') hgroup' (hid.symm ▸ hg) hpath
      apply Nat.lt_of_lt_of_le hpos
      have hle := le_total_of_mem (f := fun pt =>
        (s.dtMasksGetFromId pt.formid).elim 0 fun form => s.pathsTo n form t) hpt
      rw [hg] at hle
      exact hle

end Walks

/-! ## Steps -/

/-- Every id is that of one form, and there is no cycle. -/
structure Sound (s : MasksDevelop) : Prop where
  nodup : s.formids.Nodup
  acyclic : Reasoning.Acyclic s.Contains

theorem Sound.exists_rank (h : s.Sound) : ∃ rank : Int → Nat,
    (∀ i, rank i ≤ s.formids.length) ∧ ∀ i j, s.Contains i j → rank j < rank i :=
  h.acyclic.exists_rank fun _ _ hedge => hedge.mem_formids

theorem Sound.walks (h : s.Sound) : s.Acyclic := by
  obtain ⟨rank, hle, hrank⟩ := h.exists_rank
  refine ⟨h.acyclic, fun a _ => ⟨fun formid => ⟨depth s, ?_⟩, fun dest => ⟨depth s, ?_⟩⟩⟩
  · exact (shallow_depth hle).findInGroup_isSome hrank formid
  · exact (shallow_depth hle).dtMasksGroupUngroup_isSome hrank dest

theorem Sound.addPoint_of_none (h : s.Sound) {grp : Nat} (hpt : s.groupView pt.formid = none) :
    (s.addPoint grp pt).Sound where
  nodup := formids_setPoints.symm ▸ h.nodup
  acyclic := by
    refine h.acyclic.mono ?_
    intro i j hedge
    rcases contains_addPoint hedge with hedge | ⟨-, -, hview⟩
    · exact hedge
    · exact absurd hpt hview

theorem Sound.addPoint (h : s.Sound) {grp : Nat}
    (hpt : ¬ ReflTransGen s.Contains pt.formid (s.heap grp).formid) :
    (s.addPoint grp pt).Sound where
  nodup := formids_setPoints.symm ▸ h.nodup
  acyclic := by
    refine h.acyclic.insert hpt ?_
    intro i j hedge
    rcases contains_addPoint hedge with hedge | ⟨hget, hj, -⟩
    · exact .inl hedge
    · exact .inr ⟨(dtMasksGetFromId_eq_some hget).2.symm, hj⟩

section Append

variable {form : DrawnForm}

theorem nodup_append (h : s.formids.Nodup) (hnew : form.formid ∉ s.formids) :
    (s.append form).formids.Nodup := by
  rw [formids_append]
  exact nodup_append'.mpr ⟨h, nodup_singleton _, by simpa using hnew⟩

theorem contains_append (hnew : form.formid ∉ s.formids) {j : Int} (hi : i ≠ form.formid)
    (hj : j ≠ form.formid) (h : (s.append form).Contains i j) : s.Contains i j := by
  obtain ⟨l, hl, hmem, hview⟩ := h
  rw [groupView_append hnew, update_of_ne hi] at hl
  rw [groupView_append hnew, update_of_ne hj] at hview
  exact ⟨l, hl, hmem, hview⟩

theorem Sound.append_of_empty (h : s.Sound) (hnew : form.formid ∉ s.formids)
    (hempty : form.points = []) : (s.append form).Sound where
  nodup := nodup_append h.nodup hnew
  acyclic := by
    have hleaf : ∀ j, ¬ (s.append form).Contains form.formid j := by
      rintro j ⟨l, hl, hmem, -⟩
      rw [groupView_append hnew, update_self, members, hempty] at hl
      split at hl
      · cases hl
        cases hmem
      · cases hl
    apply acyclic_of_closed (p := (· = form.formid))
    · rintro i j rfl hedge
      exact absurd hedge (hleaf j)
    · refine h.acyclic.mono ?_
      rintro i j ⟨rfl, -, hedge⟩
      exact absurd hedge (hleaf j)
    · refine h.acyclic.mono ?_
      rintro i j ⟨hi, hj, hedge⟩
      exact contains_append hnew hi hj hedge

theorem Sound.append_of_unused (h : s.Sound) (hnew : form.formid ∉ s.formids)
    (hself : ∀ pt ∈ form.points, pt.formid ≠ form.formid)
    (hunused : ∀ a ∈ s.forms, ∀ pt ∈ (s.heap a).points, pt.formid ≠ form.formid) :
    (s.append form).Sound where
  nodup := nodup_append h.nodup hnew
  acyclic := by
    have hroot : ∀ i, ¬ (s.append form).Contains i form.formid := by
      rintro i ⟨l, hl, hmem, -⟩
      obtain ⟨a, hget, -, rfl⟩ := groupView_eq_some.mp hl
      obtain ⟨pt, hpt, heq⟩ := mem_map.mp hmem
      rw [dtMasksGetFromId_append hnew] at hget
      split at hget
      · cases hget
        rw [heap_append_next] at hpt
        exact hself pt hpt heq
      · have ha := (dtMasksGetFromId_eq_some hget).1
        rw [heap_append ha] at hpt
        exact hunused a ha pt hpt heq
    apply acyclic_of_closed (p := (· ≠ form.formid))
    · rintro i j - hedge rfl
      exact hroot i hedge
    · refine h.acyclic.mono ?_
      rintro i j ⟨hi, hj, hedge⟩
      exact contains_append hnew hi hj hedge
    · refine h.acyclic.mono ?_
      rintro i j ⟨-, hj, hedge⟩
      rw [not_not] at hj
      exact absurd (hj ▸ hedge) (hroot i)

end Append

section Steps

variable {ids : Nat → Int}

theorem groupView_of_not_group (hget : s.dtMasksGetFromId i = some a)
    (hgroup : (s.heap a).isGroup = false) : s.groupView i = none := by
  rw [groupView, hget, bind_some, members, if_neg (by simp [hgroup])]

theorem isGroup_shapeType (shape : MasksShape) (cloning : Cloning) :
    (shapeType shape cloning).testBit 2 = false := by
  cases shape <;> cases cloning <;> rfl

theorem Sound.groupCreate (h : s.Sound) (module : Nat) (m : BlendModule) (type : Nat) :
    (groupCreate ids s module m type).Sound := by
  have hsound := h.append_of_empty (formid_checkId_not_mem s (dtMasksCreate ids s type)) rfl
  exact ⟨hsound.nodup, hsound.acyclic⟩

theorem groupView_groupCreate (hi : i ∈ s.formids) (module : Nat) (m : BlendModule) (type : Nat) :
    (groupCreate ids s module m type).groupView i = s.groupView i := by
  have hnew := formid_checkId_not_mem s (dtMasksCreate ids s type)
  show (s.append (checkId s (dtMasksCreate ids s type))).groupView i = _
  rw [groupView_append hnew, update_of_ne]
  rintro rfl
  exact hnew hi

theorem Sound.dtMasksGuiFormSaveCreation (h : s.Sound) (module : Option Nat) {type : Nat}
    (htype : type.testBit 2 = false) : (dtMasksGuiFormSaveCreation ids s module type).Sound := by
  rw [DTLite.dtMasksGuiFormSaveCreation]
  generalize hform : checkId s (dtMasksCreate ids s type) = form
  have hnew : form.formid ∉ s.formids := hform ▸ formid_checkId_not_mem s _
  have happend : (s.append form).Sound := h.append_of_empty hnew (hform ▸ rfl)
  have hshape : form.isGroup = false := hform ▸ htype
  have hview : (s.append form).groupView form.formid = none := by
    rw [groupView_append hnew, update_self, members, if_neg (by simp [hshape])]
  split
  · exact happend
  · split
    · exact happend.addPoint_of_none hview
    · refine (happend.groupCreate _ _ _).addPoint_of_none ?_
      refine (groupView_groupCreate ?_ _ _ _).trans hview
      rw [formids_append]
      exact mem_append_right _ mem_cons_self

theorem Sound.dtMasksGroupAddForm (h : s.Sound) {grp form : Nat} (hform : form ∈ s.forms)
    (hpaths : s.pathsTo (depth s) form (s.heap grp).formid < 2147483648) :
    (dtMasksGroupAddForm s grp form).Sound := by
  rw [DTLite.dtMasksGroupAddForm]
  have hget := dtMasksGetFromId_of_mem h.nodup hform
  split
  · exact h
  split
  next hadd =>
    rcases hadd with hshape | hfind
    · exact h.addPoint_of_none (groupView_of_not_group hget hshape)
    · have hzero : s.pathsTo (depth s) form (s.heap grp).formid = 0 := by
        have := congrArg Int32.toInt (findInGroup_eq hfind)
        rw [Int32.toInt_ofNat_of_lt hpaths] at this
        exact (Int.natCast_inj.mp this).symm
      by_cases hgroup : (s.heap form).isGroup = true
      · obtain ⟨rank, hle, hrank⟩ := h.exists_rank
        apply h.addPoint
        intro hpath
        exact Nat.ne_of_gt ((shallow_depth hle).pathsTo_pos hrank hgroup hget hpath) hzero
      · exact h.addPoint_of_none (groupView_of_not_group hget (by simpa using hgroup))
  · exact h

theorem mem_selectedPoints {parentid : Int} {selection : List Int} {pos : Nat}
    (h : pt ∈ selectedPoints parentid pos selection) : pt.formid ∈ selection := by
  induction selection generalizing pos with
  | nil => cases h
  | cons id selection ih =>
    rw [selectedPoints] at h
    split at h
    · rcases mem_cons.mp h with rfl | h
      · exact mem_cons_self
      · exact mem_cons_of_mem _ (ih h)
    · exact mem_cons_of_mem _ (ih h)

theorem Sound.treeGroup (h : s.Sound) {selection : List Int} (hnew : ids s.next ∉ s.formids)
    (hself : ids s.next ∉ selection)
    (hunused : ∀ a ∈ s.forms, ∀ pt ∈ (s.heap a).points, pt.formid ≠ ids s.next) :
    (treeGroup ids s selection).Sound := by
  refine h.append_of_unused hnew ?_ hunused
  intro pt hpt (heq : pt.formid = ids s.next)
  exact hself (heq ▸ mem_selectedPoints hpt)

end Steps

/-! ## Copies -/

/-- The forms of `base` are as they were, and each of the others refers only to later ones. -/
structure Copying (base s : MasksDevelop) : Prop where
  nodup : s.formids.Nodup
  old : ∀ a ∈ base.forms, a ∈ s.forms ∧ s.heap a = base.heap a
  new : ∀ a ∈ s.forms, a ∉ base.forms → base.next ≤ a
  next : base.next ≤ s.next
  later : ∀ a ∈ s.forms, a ∉ base.forms → ∀ pt ∈ (s.heap a).points,
    ∃ b ∈ s.forms, a < b ∧ (s.heap b).formid = pt.formid

-- What is still there after a call.
structure Extends (s s' : MasksDevelop) : Prop where
  forms : ∀ a ∈ s.forms, a ∈ s'.forms ∧ (s'.heap a).formid = (s.heap a).formid
  next : s.next ≤ s'.next

theorem Extends.trans {s s' s'' : MasksDevelop} (h : s.Extends s') (h' : s'.Extends s'') :
    s.Extends s'' where
  forms a ha := by
    obtain ⟨hmem, hid⟩ := h.forms a ha
    obtain ⟨hmem', hid'⟩ := h'.forms a hmem
    exact ⟨hmem', hid'.trans hid⟩
  next := h.next.trans h'.next

theorem extends_append (form : DrawnForm) : s.Extends (s.append form) where
  forms _ ha := ⟨mem_append_left _ ha, congrArg _ (heap_append ha)⟩
  next := Nat.le_succ _

theorem extends_addPoint (grp : Nat) (pt : MasksPointGroup) : s.Extends (s.addPoint grp pt) where
  forms _ ha := ⟨ha, formid_setPoints⟩
  next := Nat.le_refl _

section Copying

variable {base : MasksDevelop}

theorem Copying.refl (h : base.formids.Nodup) : base.Copying base where
  nodup := h
  old _ ha := ⟨ha, rfl⟩
  new _ ha hnot := absurd ha hnot
  next := Nat.le_refl _
  later _ ha hnot := absurd ha hnot

section

variable (h : base.Copying s)
include h

theorem Copying.dtMasksGetFromId (hi : i ∈ base.formids) :
    s.dtMasksGetFromId i = base.dtMasksGetFromId i := by
  cases hget : base.dtMasksGetFromId i with
  | none => exact absurd hi (dtMasksGetFromId_eq_none.mp hget)
  | some a =>
    obtain ⟨ha, rfl⟩ := dtMasksGetFromId_eq_some hget
    obtain ⟨hmem, hheap⟩ := h.old a ha
    rw [← hheap]
    exact dtMasksGetFromId_of_mem h.nodup hmem

theorem Copying.append {form : DrawnForm} (hnew : form.formid ∉ s.formids)
    (hempty : form.points = []) : base.Copying (s.append form) where
  nodup := nodup_append h.nodup hnew
  old a ha := by
    obtain ⟨hmem, hheap⟩ := h.old a ha
    exact ⟨mem_append_left _ hmem, (heap_append hmem).trans hheap⟩
  new a ha hnot := by
    rcases mem_append.mp ha with ha | ha
    · exact h.new a ha hnot
    · rw [mem_singleton.mp ha]
      exact h.next
  next := h.next.trans (Nat.le_succ _)
  later a ha hnot pt hpt := by
    rcases mem_append.mp ha with ha | ha
    · rw [heap_append ha] at hpt
      obtain ⟨b, hb, hlt, hid⟩ := h.later a ha hnot pt hpt
      exact ⟨b, mem_append_left _ hb, hlt, (congrArg _ (heap_append hb)).trans hid⟩
    · rw [mem_singleton.mp ha, heap_append_next, hempty] at hpt
      cases hpt

theorem Copying.addPoint {dest : Nat} (hdest : base.next ≤ dest)
    {pt : MasksPointGroup} {b : Nat} (hb : b ∈ s.forms) (hlt : dest < b)
    (hid : (s.heap b).formid = pt.formid) : base.Copying (s.addPoint dest pt) where
  nodup := formids_setPoints.symm ▸ h.nodup
  old a ha := by
    obtain ⟨hmem, hheap⟩ := h.old a ha
    have hne : a ≠ dest := by
      have := base.known a ha
      omega
    exact ⟨hmem, (update_of_ne hne _ _).trans hheap⟩
  new := h.new
  next := h.next
  later a ha hnot pt' hpt' := by
    by_cases hdest : a = dest
    · subst hdest
      rw [MasksDevelop.addPoint, points_setPoints_self] at hpt'
      rcases mem_append.mp hpt' with hpt' | hpt'
      · obtain ⟨b, hb, hlt, hid⟩ := h.later a ha hnot pt' hpt'
        exact ⟨b, hb, hlt, formid_setPoints.trans hid⟩
      · rw [mem_singleton.mp hpt']
        exact ⟨b, hb, hlt, formid_setPoints.trans hid⟩
    · rw [MasksDevelop.addPoint, heap_setPoints_of_ne hdest] at hpt'
      obtain ⟨b, hb, hlt, hid⟩ := h.later a ha hnot pt' hpt'
      exact ⟨b, hb, hlt, formid_setPoints.trans hid⟩

theorem Copying.sound (hbase : base.Sound)
    (hclosed : ∀ a ∈ base.forms, (base.heap a).isGroup = true →
      ∀ pt ∈ (base.heap a).points, pt.formid ∈ base.formids) : s.Sound where
  nodup := h.nodup
  acyclic := by
    have hview : ∀ i ∈ base.formids, s.groupView i = base.groupView i := by
      intro i hi
      rw [groupView, groupView, h.dtMasksGetFromId hi]
      cases hget : base.dtMasksGetFromId i with
      | none => rfl
      | some a => rw [bind_some, bind_some, (h.old a (dtMasksGetFromId_eq_some hget).1).2]
    apply acyclic_of_closed (p := (· ∈ base.formids))
    · rintro i j hi ⟨l, hl, hj, -⟩
      rw [hview i hi] at hl
      obtain ⟨a, hget, hgroup, rfl⟩ := groupView_eq_some.mp hl
      obtain ⟨pt, hpt, rfl⟩ := mem_map.mp hj
      exact hclosed a (dtMasksGetFromId_eq_some hget).1 hgroup pt hpt
    · refine hbase.acyclic.mono ?_
      rintro i j ⟨hi, hj, l, hl, hmem, hne⟩
      exact ⟨l, hview i hi ▸ hl, hmem, hview j hj ▸ hne⟩
    · apply acyclic_of_measure fun i => s.next - (s.dtMasksGetFromId i).getD 0
      rintro i j ⟨hi, -, l, hl, hmem, -⟩
      obtain ⟨a, hget, -, rfl⟩ := groupView_eq_some.mp hl
      obtain ⟨pt, hpt, rfl⟩ := mem_map.mp hmem
      obtain ⟨ha, rfl⟩ := dtMasksGetFromId_eq_some hget
      have hnot : a ∉ base.forms := by
        intro ha'
        rw [(h.old a ha').2] at hi
        exact hi (mem_formids.mpr ⟨a, ha', rfl⟩)
      obtain ⟨b, hb, hlt, hid⟩ := h.later a ha hnot pt hpt
      rw [← hid, hget, dtMasksGetFromId_of_mem h.nodup hb]
      have := s.known b hb
      show s.next - b < s.next - a
      omega

end

/-- A copy of a form of `base`. -/
def Copies (base : MasksDevelop) (dup : MasksDevelop → Int → Option (Int × MasksDevelop)) : Prop :=
  ∀ s formid nid s', base.Copying s → formid ∈ base.formids → dup s formid = some (nid, s') →
    base.Copying s' ∧ s.Extends s' ∧ ∃ b ∈ s'.forms, s.next ≤ b ∧ (s'.heap b).formid = nid

section Loop

variable {dup : MasksDevelop → Int → Option (Int × MasksDevelop)} {dest : Nat}
  {pts : List MasksPointGroup} {s' : MasksDevelop}

section

variable (hdup : base.Copies dup)
include hdup

theorem Copies.turn (h : base.Copying s) (hdest : base.next ≤ dest)
    (hlt : dest < s.next) (hpt : pt.formid ∈ base.formids) {nid : Int}
    (heq : dup s pt.formid = some (nid, s')) :
    base.Copying (s'.addPoint dest ⟨nid, (s'.heap dest).formid, pt.state⟩) ∧
      s.Extends (s'.addPoint dest ⟨nid, (s'.heap dest).formid, pt.state⟩) := by
  obtain ⟨hcopy, hext, b, hb, hle, hid⟩ := hdup s pt.formid nid s' h hpt heq
  exact ⟨hcopy.addPoint hdest hb (hlt.trans_le hle) hid, hext.trans (extends_addPoint _ _)⟩

theorem Copies.loop (h : base.Copying s)
    (hdest : base.next ≤ dest) (hlt : dest < s.next) (hpts : ∀ pt ∈ pts, pt.formid ∈ base.formids)
    (heq : groupDuplicatePoints dup dest pts s = some s') :
    base.Copying s' ∧ s.Extends s' := by
  induction pts generalizing s with
  | nil =>
    cases heq
    exact ⟨h, fun _ ha => ⟨ha, rfl⟩, Nat.le_refl _⟩
  | cons pt pts ih =>
    rw [groupDuplicatePoints] at heq
    split at heq
    · cases heq
    next nid s₁ hpt =>
      obtain ⟨hcopy, hext⟩ := hdup.turn h hdest hlt (hpts pt mem_cons_self) hpt
      obtain ⟨hcopy', hext'⟩ := ih hcopy (hlt.trans_le hext.next)
        (fun p hp => hpts p (mem_cons_of_mem _ hp)) heq
      exact ⟨hcopy', hext.trans hext'⟩

theorem Copies.loop_isSome (h : base.Copying s)
    (hdest : base.next ≤ dest) (hlt : dest < s.next) (hpts : ∀ pt ∈ pts, pt.formid ∈ base.formids)
    (hsome : ∀ s, base.Copying s → ∀ pt ∈ pts, (dup s pt.formid).isSome) :
    (groupDuplicatePoints dup dest pts s).isSome := by
  induction pts generalizing s with
  | nil => rfl
  | cons pt pts ih =>
    obtain ⟨⟨nid, s₁⟩, hpt⟩ := isSome_iff_exists.mp (hsome s h pt mem_cons_self)
    rw [groupDuplicatePoints, hpt]
    obtain ⟨hcopy, hext⟩ := hdup.turn h hdest hlt (hpts pt mem_cons_self) hpt
    exact ih hcopy (hlt.trans_le hext.next) (fun p hp => hpts p (mem_cons_of_mem _ hp))
      fun s hs p hp => hsome s hs p (mem_cons_of_mem _ hp)

end

end Loop

section Duplicate

variable {ids : Nat → Int}

theorem isGroup_of_groupFunctions {f : DrawnForm} (h : f.groupFunctions = true) :
    f.isGroup = true := by
  rw [groupFunctions, Bool.and_eq_true] at h
  exact h.2

section

variable (hclosed : ∀ a ∈ base.forms, (base.heap a).isGroup = true →
  ∀ pt ∈ (base.heap a).points, pt.formid ∈ base.formids)
include hclosed

theorem dtMasksFormDuplicate_copies (n : Nat) : base.Copies (dtMasksFormDuplicate ids n) := by
  induction n with
  | zero =>
    intro s formid nid s' _ _ heq
    cases heq
  | succ n ih =>
    intro s formid nid s' h hmem heq
    obtain ⟨a, hget⟩ := exists_dtMasksGetFromId hmem
    have ha := (dtMasksGetFromId_eq_some hget).1
    rw [dtMasksFormDuplicate, h.dtMasksGetFromId hmem, hget] at heq
    dsimp only at heq
    rw [(h.old a ha).2] at heq
    generalize hdest : checkId s (dtMasksCreate ids s (base.heap a).type) = dest at heq
    have hnew : dest.formid ∉ s.formids := hdest ▸ formid_checkId_not_mem s _
    have happend : base.Copying (s.append dest) := h.append hnew (hdest ▸ rfl)
    have hlast : s.next ∈ (s.append dest).forms := mem_append_right _ mem_cons_self
    have hid : ((s.append dest).heap s.next).formid = dest.formid := by rw [heap_append_next]
    split at heq
    next hgroup =>
      split at heq
      · cases heq
      next s₁ hloop =>
        cases heq
        obtain ⟨hcopy, hext⟩ := ih.loop happend h.next (Nat.lt_succ_self _)
          (hclosed a ha (isGroup_of_groupFunctions hgroup)) hloop
        obtain ⟨hmem', hid'⟩ := hext.forms _ hlast
        exact ⟨hcopy, (extends_append dest).trans hext, s.next, hmem', Nat.le_refl _,
          hid'.trans hid⟩
    · cases heq
      exact ⟨happend, extends_append dest, s.next, hlast, Nat.le_refl _, hid⟩

theorem dtMasksFormDuplicate_isSome {rank : Int → Nat}
    (hrank : ∀ i j, base.Contains i j → rank j < rank i) {n : Nat} (h : base.Copying s)
    {formid : Int} (hmem : formid ∈ base.formids) (hpos : 0 < n)
    (hn : base.groupView formid ≠ none → rank formid + 1 < n) :
    (dtMasksFormDuplicate ids n s formid).isSome := by
  induction n generalizing s formid with
  | zero => cases hpos
  | succ n ih =>
    obtain ⟨a, hget⟩ := exists_dtMasksGetFromId hmem
    have ha := (dtMasksGetFromId_eq_some hget).1
    rw [dtMasksFormDuplicate, h.dtMasksGetFromId hmem, hget]
    dsimp only
    rw [(h.old a ha).2]
    split
    next hgroup =>
      have hgroup := isGroup_of_groupFunctions hgroup
      have hlt := hn (groupView_ne_none hget hgroup)
      have happend := h.append (formid_checkId_not_mem s (dtMasksCreate ids s (base.heap a).type))
        rfl
      have hcopies : base.Copies (dtMasksFormDuplicate ids n) :=
        dtMasksFormDuplicate_copies hclosed n
      obtain ⟨s', hs'⟩ := isSome_iff_exists.mp <|
        hcopies.loop_isSome happend h.next (Nat.lt_succ_self _) (hclosed a ha hgroup) <| by
          intro s hs pt hpt
          refine ih hs (hclosed a ha hgroup pt hpt) (by omega) ?_
          intro hview
          have := hrank _ _ (contains_of_mem hget hgroup hpt hview)
          omega
      rw [hs']
      rfl
    · rfl

end

end Duplicate

end Copying

section Step

variable {ids : Nat → Int}

theorem Sound.duplicate (h : s.Sound) (hclosed : ∀ a ∈ s.forms, (s.heap a).isGroup = true →
      ∀ pt ∈ (s.heap a).points, pt.formid ∈ s.formids) (formid : Int) :
    ∃ nid s', dtMasksFormDuplicate ids (depth s) s formid = some (nid, s') ∧ s'.Sound := by
  by_cases hmem : formid ∈ s.formids
  · obtain ⟨rank, hle, hrank⟩ := h.exists_rank
    have hdeep : rank formid + 1 < depth s := by
      have := hle formid
      rw [formids, length_map] at this
      rw [depth]
      omega
    obtain ⟨⟨nid, s'⟩, heq⟩ := isSome_iff_exists.mp
      (@dtMasksFormDuplicate_isSome s s ids hclosed rank hrank (depth s) (.refl h.nodup) formid hmem
        (Nat.succ_pos _) fun _ => hdeep)
    obtain ⟨hcopy, -⟩ :=
      dtMasksFormDuplicate_copies hclosed _ s formid nid s' (.refl h.nodup) hmem heq
    exact ⟨nid, s', heq, hcopy.sound h hclosed⟩
  · refine ⟨-1, s, ?_, h⟩
    rw [depth, dtMasksFormDuplicate, dtMasksGetFromId_eq_none.mpr hmem]

theorem Sound.step (h : s.Sound) {e : MasksEvent} (hsafe : e.Safe ids s) :
    (masksStep ids s e).Sound := by
  cases e with
  | shape module shape cloning =>
    exact h.dtMasksGuiFormSaveCreation module (isGroup_shapeType shape cloning)
  | duplicate formid =>
    obtain ⟨nid, s', heq, hsound⟩ := @Sound.duplicate s ids h hsafe formid
    rw [masksStep, heq]
    exact hsound
  | group selection => exact h.treeGroup hsafe.1 hsafe.2.1 hsafe.2.2
  | addForm grp form =>
    rw [masksStep]
    split
    next hmem => exact h.dtMasksGroupAddForm hmem.2 hsafe
    · exact h

end Step

end MasksDevelop

/-- New forms and new members keep the groups free of cycles. -/
theorem masksStep_acyclic {ids : Nat → Int} {s : MasksDevelop} (events : List MasksEvent)
    (hids : s.formids.Nodup) (hstart : Acyclic s.Contains)
    (hsafe : AllSteps (masksStep ids) (MasksEvent.Safe ids) s events) :
    AllStates (masksStep ids) MasksDevelop.Acyclic s events := by
  have hsound : AllStates (masksStep ids) Sound s events :=
    allStates_of_allSteps (fun _ _ h => h.step) ⟨hids, hstart⟩ hsafe
  exact hsound.mono fun _ h => h.walks

section Examples

-- Two groups without members, and a module without a mask.
def emptyGroups : MasksDevelop where
  heap a := ⟨10 + a, 4, []⟩
  forms := [0, 1]
  iop := [⟨true, 0⟩]
  next := 2
  known := by decide

theorem emptyGroups_masksStep_acyclic :
    AllStates (masksStep fun n => 1600000000 + n) MasksDevelop.Acyclic emptyGroups
      [.shape (some 0) .circle .none, .addForm 0 1, .duplicate 10, .addForm 1 0, .group [10]] := by
  refine masksStep_acyclic _ (by decide) ?_ (by decide +kernel)
  apply acyclic_of_measure fun _ => 0
  rintro i j ⟨l, hl, hj, -⟩
  obtain ⟨a, -, -, rfl⟩ := groupView_eq_some.mp hl
  cases hj

-- A group whose only member was deleted.
def danglingGroup : MasksDevelop where
  heap _ := ⟨1600000000, 4, [⟨1600000009, 1600000000, 3⟩]⟩
  forms := [0]
  iop := []
  next := 1
  known := by decide

/-- The new group gets the id of the form that is missing, and contains the group that refers to
it. -/
theorem danglingGroup_treeGroup_cyclic :
    danglingGroup.formids.Nodup ∧ Acyclic danglingGroup.Contains ∧
      ¬ Acyclic (masksStep (fun _ => 1600000009) danglingGroup (.group [1600000000])).Contains := by
  refine ⟨by decide, ?_, ?_⟩
  · apply acyclic_of_measure fun _ => 0
    rintro i j ⟨l, hl, hj, hview⟩
    obtain ⟨a, -, -, rfl⟩ := groupView_eq_some.mp hl
    cases mem_singleton.mp hj
    exact absurd (by decide) hview
  · intro hacyclic
    apply hacyclic 1600000000
    refine .tail (.single (b := 1600000009) ⟨_, rfl, ?_, ?_⟩) ⟨_, rfl, ?_, ?_⟩
    all_goals decide +kernel

end Examples

end DTLite
