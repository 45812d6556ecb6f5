import DTLite.Common.HistoryHash
import DTLite.Develop.Masks
import DTLite.Reasoning.Acyclic
import DTLite.Reasoning.Walk

/-!
# The hash of a piece

`dt_iop_commit_params` hashes a buffer into `piece->hash`, from which the cache of the pipe tells
whether an output can be used again.  The buffer is made of params, blend params and the forms of
the mask; the module is given the committed params, but the buffer gets those of the module.
-/

namespace DTLite

open Reasoning Relation Option List

-- `memcpy` of `size` bytes
def memcpy (size : Nat) (src : Blob) : Blob := (List.range size).map fun i => src.getD i 0

def formInfos (form : MasksForm) : Blob :=
  intBytes form.type ++ intBytes form.formid ++ intBytes form.version ++ memcpy 8 form.source

section Buffer

variable (forms : List MasksForm)

-- what a point puts into the buffer, `sub` being the buffer of a member
def hashPoint (sub : MasksForm → Option Blob) (form : MasksForm) (pt : Blob) : Option Blob :=
  if form.isGroup then
    match dtMasksGetFromIdExt forms (pointFormid pt) with
    | none => some []
    | some f => (sub f).map (memcpy 4 (pt.drop 8) ++ memcpy 4 (pt.drop 12) ++ ·) -- state & opacity
  else
    match pointStructSize form.type with
    | none => some []
    | some size => some (memcpy size pt)

/-- `none` if the groups are nested deeper than `n`. -/
def dtMasksGroupGetHashBuffer : Nat → MasksForm → Option Blob
  | 0, _ => none
  | n + 1, form =>
      (concatM (hashPoint forms (dtMasksGroupGetHashBuffer n) form) form.points).map
        (formInfos form ++ ·)

def hashPointLength (sub : MasksForm → Option Nat) (form : MasksForm) (pt : Blob) : Option Nat :=
  if form.isGroup then
    match dtMasksGetFromIdExt forms (pointFormid pt) with
    | none => some 0
    | some f => (sub f).map (4 + 4 + ·)
  else some ((pointStructSize form.type).getD 0)

def dtMasksGroupGetHashBufferLength : Nat → MasksForm → Option Nat
  | 0, _ => none
  | n + 1, form =>
      form.points.foldlM (fun pos pt =>
        (hashPointLength forms (dtMasksGroupGetHashBufferLength n) form pt).map (pos + ·))
        (4 + 4 + 4 + 2 * 4)

end Buffer

/-- A call of `dt_iop_commit_params` for an enabled piece: the module with its own params, the
committed params and blend params, and `dev->forms`. -/
structure CommitCall where
  module : IopModule
  params : Blob
  blendopParams : Blob
  forms : List MasksForm
  live_length : module.params.length = module.paramsSize
  params_length : params.length = module.paramsSize

namespace CommitCall

variable (c : CommitCall)

-- `blendop_params->mask_id`, as the argument of `dt_masks_get_from_id`
def maskId : Int := blobInt c.blendopParams 16

def maskBytes (n : Nat) : Option Blob :=
  match dtMasksGetFromIdExt c.forms c.maskId with
  | none => some []
  | some grp => dtMasksGroupGetHashBuffer c.forms n grp

def hashBuffer (n : Nat) : Option Blob :=
  (c.maskBytes n).map fun mask =>
    c.module.params ++ (if c.module.supportsBlending then c.blendopParams else []) ++ mask

def hashLength (n : Nat) : Option Nat :=
  (match dtMasksGetFromIdExt c.forms c.maskId with
    | none => some 0
    | some grp => dtMasksGroupGetHashBufferLength c.forms n grp).map fun mask =>
    c.module.paramsSize + (if c.module.supportsBlending then c.blendopParams.length else 0) + mask

end CommitCall

@[simp] theorem length_memcpy (size : Nat) (src : Blob) : (memcpy size src).length = size := by
  simp [memcpy]

theorem length_formInfos (form : MasksForm) : (formInfos form).length = 4 + 4 + 4 + 2 * 4 := by
  simp [formInfos, intBytes]

section Length

variable {forms : List MasksForm}

theorem hashPointLength_eq {sub : MasksForm → Option Blob} {subLength : MasksForm → Option Nat}
    (hsub : ∀ f, subLength f = (sub f).map length) (form : MasksForm) (pt : Blob) :
    hashPointLength forms subLength form pt = (hashPoint forms sub form pt).map length := by
  unfold hashPointLength hashPoint
  cases form.isGroup with
  | false => cases pointStructSize form.type <;> simp
  | true =>
    rw [if_pos rfl, if_pos rfl]
    cases dtMasksGetFromIdExt forms (pointFormid pt) with
    | none => rfl
    | some f =>
      dsimp only
      rw [hsub, Option.map_map, Option.map_map]
      congr 1
      funext bytes
      simp only [Function.comp_apply, length_append, length_memcpy]

theorem dtMasksGroupGetHashBufferLength_eq (n : Nat) (form : MasksForm) :
    dtMasksGroupGetHashBufferLength forms n form =
      (dtMasksGroupGetHashBuffer forms n form).map length := by
  induction n generalizing form with
  | zero => rfl
  | succ n ih =>
    unfold dtMasksGroupGetHashBufferLength dtMasksGroupGetHashBuffer
    simp only [hashPointLength_eq ih]
    rw [foldlM_add_length, Option.map_map]
    congr 1
    funext bytes
    rw [Function.comp_apply, length_append, length_formInfos]

theorem CommitCall.hashLength_eq (c : CommitCall) (n : Nat) :
    c.hashLength n = (c.hashBuffer n).map length := by
  unfold CommitCall.hashLength CommitCall.hashBuffer CommitCall.maskBytes
  cases dtMasksGetFromIdExt c.forms c.maskId with
  | none => cases hblend : c.module.supportsBlending <;> simp [c.live_length]
  | some grp =>
    dsimp only
    rw [dtMasksGroupGetHashBufferLength_eq, Option.map_map, Option.map_map]
    congr 1
    funext mask
    cases hblend : c.module.supportsBlending <;> simp [c.live_length, Nat.add_assoc]

end Length

/-- Going from group to member, the id `root` leads to the id `id`. -/
def LeadsTo (forms : List MasksForm) (root id : Int) : Prop :=
  ReflTransGen (fun i j => j ∈ groupMembers forms i) root id

/-- The form is reachable from the id `root` through group membership. -/
def ReachableForm (forms : List MasksForm) (root : Int) (form : MasksForm) : Prop :=
  ∃ id, LeadsTo forms root id ∧ dtMasksGetFromIdExt forms id = some form

section Reach

variable {forms forms' : List MasksForm} {root id : Int} {form : MasksForm}

theorem dtMasksGetFromIdExt_of_reachable (h : ReachableForm forms' root form)
    (hid : form.formid = id) : dtMasksGetFromIdExt forms' id = some form := by
  obtain ⟨id', -, hget⟩ := h
  rw [← hid, (dtMasksGetFromIdExt_eq_some hget).2]
  exact hget

section

variable (hsame : ∀ f, ReachableForm forms root f ↔ ReachableForm forms' root f)
include hsame

/-- Lists with the same reachable forms look the same from the root. -/
theorem get_eq_of_sameReachable (hid : LeadsTo forms root id) (hid' : LeadsTo forms' root id) :
    dtMasksGetFromIdExt forms id = dtMasksGetFromIdExt forms' id := by
  apply ext
  intro f
  constructor
  · intro hget
    exact dtMasksGetFromIdExt_of_reachable ((hsame f).mp ⟨id, hid, hget⟩)
      (dtMasksGetFromIdExt_eq_some hget).2
  · intro hget
    exact dtMasksGetFromIdExt_of_reachable ((hsame f).mpr ⟨id, hid', hget⟩)
      (dtMasksGetFromIdExt_eq_some hget).2

theorem leadsTo_of_sameReachable (hid : LeadsTo forms root id) : LeadsTo forms' root id := by
  induction hid with
  | refl => exact .refl
  | @tail i j hpath hmem ih =>
    refine ih.tail ?_
    rw [mem_groupMembers] at hmem ⊢
    rw [← get_eq_of_sameReachable hsame hpath ih]
    exact hmem

theorem dtMasksGroupGetHashBuffer_congr (n : Nat) (hid : LeadsTo forms root id)
    (hget : dtMasksGetFromIdExt forms id = some form) :
    dtMasksGroupGetHashBuffer forms n form = dtMasksGroupGetHashBuffer forms' n form := by
  induction n generalizing id form with
  | zero => rfl
  | succ n ih =>
    refine congrArg (Option.map _) (concatM_congr fun pt hpt => ?_)
    unfold hashPoint
    cases hgroup : form.isGroup with
    | false => rfl
    | true =>
      have hmem : LeadsTo forms root (pointFormid pt) :=
        hid.tail (mem_groupMembers.mpr ⟨form, hget, hgroup, pt, hpt, rfl⟩)
      rw [if_pos rfl, if_pos rfl,
        ← get_eq_of_sameReachable hsame hmem (leadsTo_of_sameReachable hsame hmem)]
      cases hf : dtMasksGetFromIdExt forms (pointFormid pt) with
      | none => rfl
      | some f =>
        dsimp only
        rw [ih hmem hf]

end

end Reach

section Ends

variable {forms : List MasksForm} {form : MasksForm}

theorem dtMasksGroupGetHashBuffer_isSome {rank : Int → Nat}
    (hrank : ∀ i j, j ∈ groupMembers forms i → rank j < rank i) {n : Nat} {id : Int}
    (hget : dtMasksGetFromIdExt forms id = some form) (hn : rank id < n) :
    (dtMasksGroupGetHashBuffer forms n form).isSome := by
  induction n generalizing id form with
  | zero => omega
  | succ n ih =>
    rw [dtMasksGroupGetHashBuffer, isSome_map]
    refine concatM_isSome fun pt hpt => ?_
    unfold hashPoint
    cases hgroup : form.isGroup with
    | false => cases pointStructSize form.type <;> rfl
    | true =>
      have hlt := hrank id _ (mem_groupMembers.mpr ⟨form, hget, hgroup, pt, hpt, rfl⟩)
      rw [if_pos rfl]
      cases hf : dtMasksGetFromIdExt forms (pointFormid pt) with
      | none => rfl
      | some f =>
        rw [isSome_map]
        exact ih hf (by omega)

theorem dtMasksGroupGetHashBuffer_mono {n m : Nat} (hnm : n ≤ m) {bytes : Blob}
    (h : dtMasksGroupGetHashBuffer forms n form = some bytes) :
    dtMasksGroupGetHashBuffer forms m form = some bytes := by
  induction n generalizing m form bytes with
  | zero => cases h
  | succ n ih =>
    obtain ⟨k, rfl⟩ : ∃ k, m = k + 1 := ⟨m - 1, by omega⟩
    obtain ⟨v, hv, rfl⟩ := map_eq_some_iff.mp h
    refine map_eq_some_iff.mpr ⟨v, concatM_mono ?_ hv, rfl⟩
    intro pt hpt u hu
    unfold hashPoint at hu ⊢
    cases hgroup : form.isGroup with
    | false => simpa [hgroup] using hu
    | true =>
      rw [hgroup, if_pos rfl] at hu
      rw [if_pos rfl]
      cases hf : dtMasksGetFromIdExt forms (pointFormid pt) with
      | none =>
        rw [hf] at hu
        exact hu
      | some f =>
        rw [hf] at hu
        obtain ⟨b, hb, rfl⟩ := map_eq_some_iff.mp hu
        exact map_eq_some_iff.mpr ⟨b, ih (by omega) hb, rfl⟩

end Ends

/-! ## Two calls -/

namespace CommitCall

variable (c c' : CommitCall)

def Hashes (bytes : Blob) : Prop := ∃ n, c.hashBuffer n = some bytes

/-- The module's own params are the committed ones. -/
def Live : Prop := c.module.params = c.params

def SameModule : Prop :=
  c.module.paramsSize = c'.module.paramsSize ∧
    c.module.supportsBlending = c'.module.supportsBlending

/-- The calls agree on the committed params and blend params and on the forms of the mask. -/
structure Agree : Prop where
  params_eq : c.params = c'.params
  blendopParams_eq : c.blendopParams = c'.blendopParams
  forms_iff : ∀ f, ReachableForm c.forms c.maskId f ↔ ReachableForm c'.forms c'.maskId f

/-- The hashed bytes tell the two calls apart as they should. -/
structure HashedApart : Prop where
  same : Agree c c' → ∀ bytes, c.Hashes bytes ↔ c'.Hashes bytes
  different : c.params ≠ c'.params → ∀ bytes, ¬ (c.Hashes bytes ∧ c'.Hashes bytes)

variable {c c'} {bytes : Blob}

theorem hashes_iff : c.Hashes bytes ↔ ∃ n mask, c.maskBytes n = some mask ∧
    c.module.params ++ ((if c.module.supportsBlending then c.blendopParams else []) ++ mask) =
      bytes := by
  unfold Hashes hashBuffer
  simp

theorem Agree.maskBytes_eq (h : Agree c c') (n : Nat) : c.maskBytes n = c'.maskBytes n := by
  have hid : c'.maskId = c.maskId := by
    unfold maskId
    rw [h.blendopParams_eq]
  have hsame := h.forms_iff
  rw [hid] at hsame
  unfold maskBytes
  rw [hid, ← get_eq_of_sameReachable hsame .refl .refl]
  cases hget : dtMasksGetFromIdExt c.forms c.maskId with
  | none => rfl
  | some grp => exact dtMasksGroupGetHashBuffer_congr hsame n .refl hget

theorem maskBytes_mono {n m : Nat} (hnm : n ≤ m) {mask : Blob} (h : c.maskBytes n = some mask) :
    c.maskBytes m = some mask := by
  unfold maskBytes at h ⊢
  cases hget : dtMasksGetFromIdExt c.forms c.maskId with
  | none =>
    rw [hget] at h
    exact h
  | some grp =>
    rw [hget] at h
    exact dtMasksGroupGetHashBuffer_mono hnm h

theorem maskBytes_unique {n m : Nat} {mask mask' : Blob} (h : c.maskBytes n = some mask)
    (h' : c.maskBytes m = some mask') : mask = mask' := by
  have hmax := maskBytes_mono (Nat.le_max_left n m) h
  rw [maskBytes_mono (Nat.le_max_right n m) h'] at hmax
  exact (some.inj hmax).symm

theorem exists_hashes (hacyclic : Acyclic fun i j => j ∈ groupMembers c.forms i) :
    ∃ bytes, c.Hashes bytes := by
  obtain ⟨rank, -, hrank⟩ :=
    hacyclic.exists_rank fun _ _ => mem_pointFormids_of_mem_groupMembers
  have hmask : (c.maskBytes (rank c.maskId + 1)).isSome := by
    unfold maskBytes
    cases hget : dtMasksGetFromIdExt c.forms c.maskId with
    | none => rfl
    | some grp => exact dtMasksGroupGetHashBuffer_isSome hrank hget (by omega)
  obtain ⟨mask, hmask⟩ := isSome_iff_exists.mp hmask
  exact ⟨_, hashes_iff.mpr ⟨_, mask, hmask, rfl⟩⟩

theorem Agree.hashes_of_live (h : Agree c c') (hmod : SameModule c c') (hlive : c.Live)
    (hlive' : c'.Live) : c.Hashes bytes ↔ c'.Hashes bytes := by
  have hparams : c.module.params = c'.module.params := hlive.trans (h.params_eq.trans hlive'.symm)
  rw [hashes_iff, hashes_iff, hparams, hmod.2, h.blendopParams_eq]
  simp [h.maskBytes_eq]

theorem params_eq_of_hashes (hmod : SameModule c c') (hlive : c.Live) (hlive' : c'.Live)
    (h : c.Hashes bytes) (h' : c'.Hashes bytes) : c.params = c'.params := by
  obtain ⟨_, mask, -, hbytes⟩ := hashes_iff.mp h
  obtain ⟨_, mask', -, hbytes'⟩ := hashes_iff.mp h'
  have hlen : c.module.params.length = c'.module.params.length := by
    rw [c.live_length, c'.live_length, hmod.1]
  have hfront := append_inj_left (hbytes.trans hbytes'.symm) hlen
  exact hlive.symm.trans (hfront.trans hlive')

def madeLive (c : CommitCall) : CommitCall where
  module := { c.module with params := c.params }
  params := c.params
  blendopParams := c.blendopParams
  forms := c.forms
  live_length := c.params_length
  params_length := c.params_length

theorem live_of_hashes_madeLive (h : c.Hashes bytes) (h' : c.madeLive.Hashes bytes) : c.Live := by
  obtain ⟨n, mask, hmask, hbytes⟩ := hashes_iff.mp h
  obtain ⟨m, mask', hmask', hbytes'⟩ := hashes_iff.mp h'
  have hsame : mask = mask' := maskBytes_unique hmask hmask'
  rw [← hsame] at hbytes'
  exact append_cancel_right (hbytes.trans hbytes'.symm)

/-- The bytes follow the committed params if and only if these are the module's own params. -/
theorem live_iff_hashedApart (hacyclic : Acyclic fun i j => j ∈ groupMembers c.forms i) :
    (∃ bytes, c.Hashes bytes) ∧
      (c.Live ↔ ∀ c', SameModule c c' → c'.Live → HashedApart c c') := by
  have hbytes := exists_hashes hacyclic
  refine ⟨hbytes, ?_, ?_⟩
  · intro hlive c' hmod hlive'
    refine ⟨fun hagree bytes => hagree.hashes_of_live hmod hlive hlive', ?_⟩
    intro hne bytes hboth
    exact hne (params_eq_of_hashes hmod hlive hlive' hboth.1 hboth.2)
  · intro hall
    obtain ⟨bytes, hc⟩ := hbytes
    have hapart := hall c.madeLive ⟨rfl, rfl⟩ rfl
    have hagree : Agree c c.madeLive := ⟨rfl, rfl, fun _ => Iff.rfl⟩
    exact live_of_hashes_madeLive hc ((hapart.same hagree bytes).mp hc)

end CommitCall

-- a `dt_masks_point_group_t` with this id
def groupPoint (formid : UInt8) : Blob := formid :: List.replicate 15 0

-- the group 1 with these members, and the circle 2
def groupAndCircle (members : List UInt8) : List MasksForm :=
  [{ formid := 1, type := 4, name := "group", version := 1, source := [],
     points := members.map groupPoint },
   { formid := 2, type := 1, name := "circle", version := 1, source := [], points := [] }]

theorem acyclic_of_points {forms : List MasksForm} (rank : Int → Nat)
    (h : ∀ form ∈ forms, form.isGroup = true → ∀ pt ∈ form.points,
      rank (pointFormid pt) < rank form.formid) : Acyclic fun i j => j ∈ groupMembers forms i := by
  apply acyclic_of_measure rank
  intro i j hedge
  obtain ⟨form, hget, hgroup, pt, hpt, rfl⟩ := mem_groupMembers.mp hedge
  obtain ⟨hmem, rfl⟩ := dtMasksGetFromIdExt_eq_some hget
  exact h form hmem hgroup pt hpt

theorem acyclic_groupAndCircle {members : List UInt8}
    (h : ∀ id ∈ members, pointFormid (groupPoint id) ≠ 1) :
    Acyclic fun i j => j ∈ groupMembers (groupAndCircle members) i := by
  apply acyclic_of_points fun id => if id = 1 then 1 else 0
  intro form hform hgroup pt hpt
  simp only [groupAndCircle, mem_cons, not_mem_nil, or_false] at hform
  rcases hform with rfl | rfl
  · obtain ⟨id, hid, rfl⟩ := mem_map.mp hpt
    simp [h id hid]
  · cases hpt

-- exposure, live with the params `live`, is committed with the params `params` and without a mask
def sampleCommit (live params : UInt8) : CommitCall where
  module := { sampleModule 2 with params := [live] }
  params := [params]
  blendopParams := [0]
  forms := []
  live_length := rfl
  params_length := rfl

-- with the group 1 for its mask
def maskedCommit : CommitCall :=
  { sampleCommit 1 1 with
    blendopParams := List.replicate 16 0 ++ [1, 0, 0, 0]
    forms := groupAndCircle [2] }

theorem live_iff_hashedApart_masked :
    (∃ bytes, maskedCommit.Hashes bytes) ∧
      ∀ c', CommitCall.SameModule maskedCommit c' → c'.Live →
        CommitCall.HashedApart maskedCommit c' :=
  have h := CommitCall.live_iff_hashedApart
    (show Acyclic fun i j => j ∈ groupMembers maskedCommit.forms i from
      acyclic_groupAndCircle (forall_mem_singleton.mpr (by decide)))
  ⟨h.1, h.2.mp rfl⟩

/-- Committing 1 twice hashes two buffers if the module's params changed in between, and committing
1 and 2 hashes one buffer if they did not. -/
theorem hash_ignores_committed :
    (CommitCall.Agree (sampleCommit 0 1) (sampleCommit 1 1) ∧
      (sampleCommit 0 1).Hashes [0, 0] ∧ ¬ (sampleCommit 1 1).Hashes [0, 0]) ∧
    ((sampleCommit 0 1).params ≠ (sampleCommit 0 2).params ∧
      (sampleCommit 0 1).Hashes [0, 0] ∧ (sampleCommit 0 2).Hashes [0, 0]) := by
  have hhash : ∀ params, (sampleCommit 0 params).Hashes [0, 0] := fun params => ⟨1, rfl⟩
  refine ⟨⟨⟨rfl, rfl, fun _ => Iff.rfl⟩, hhash 1, ?_⟩, by decide, hhash 1, hhash 2⟩
  rintro ⟨n, hn⟩
  have hbytes : (some [1, 0] : Option Blob) = some [0, 0] := hn
  cases hbytes

end DTLite
