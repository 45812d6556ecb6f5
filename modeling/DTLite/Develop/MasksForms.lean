import DTLite.Reasoning.Table
import Mathlib.Data.List.Find

/-!
# The forms of the darkroom

`dev->forms` with the groups among them.  A group names its members by their ids, and whoever walks
over a group looks the members up in `dev->forms`.
-/

namespace DTLite

open Reasoning List Function

/-- `dt_masks_point_group_t`. -/
structure MasksPointGroup where
  formid : Int
  parentid : Int
  state : Nat
deriving DecidableEq, Repr

/-- `dt_masks_form_t`, with the points of a group. -/
structure DrawnForm where
  formid : Int
  type : Nat
  points : List MasksPointGroup
deriving DecidableEq, Repr

namespace DrawnForm

-- `type & DT_MASKS_GROUP`
def isGroup (f : DrawnForm) : Bool := f.type.testBit 2

-- `type & DT_MASKS_CLONE`
def isClone (f : DrawnForm) : Bool := f.type.testBit 3

-- `type & DT_MASKS_NON_CLONE`
def isNonClone (f : DrawnForm) : Bool := f.type.testBit 7

-- `dt_masks_create` sets `dt_masks_functions_group`: no shape comes first.
def groupFunctions (f : DrawnForm) : Bool :=
  !f.type.testBit 0 && !f.type.testBit 5 && !f.type.testBit 6 && !f.type.testBit 1 &&
    !f.type.testBit 4 && f.type.testBit 2

end DrawnForm

/-- A module of `dev->iop`: whether its flags have `IOP_FLAGS_SUPPORTS_BLENDING`, and
`blend_params->mask_id`. -/
structure BlendModule where
  supportsBlending : Bool
  maskId : Int
deriving DecidableEq, Repr

/-- The forms by their addresses, and the parts of `dt_develop_t` that refer to them. -/
structure MasksDevelop where
  heap : Nat → DrawnForm
  forms : List Nat
  iop : List BlendModule
  next : Nat
  known : ∀ a ∈ forms, a < next

namespace MasksDevelop

variable (s : MasksDevelop)

def formids : List Int := s.forms.map fun a => (s.heap a).formid

def dtMasksGetFromId (id : Int) : Option Nat := s.forms.find? fun a => (s.heap a).formid = id

-- `dev->forms = g_list_append(dev->forms, form)`, for a form that is new.
def append (form : DrawnForm) : MasksDevelop where
  heap := update s.heap s.next form
  forms := s.forms ++ [s.next]
  iop := s.iop
  next := s.next + 1
  known := by
    intro a ha
    rcases mem_append.mp ha with ha | ha
    · exact Nat.lt_succ_of_lt (s.known a ha)
    · rw [mem_singleton.mp ha]
      exact Nat.lt_succ_self _

def setPoints (grp : Nat) (points : List MasksPointGroup) : MasksDevelop :=
  { s with heap := update s.heap grp { s.heap grp with points := points } }

-- `grp->points = g_list_append(grp->points, pt)`
def addPoint (grp : Nat) (pt : MasksPointGroup) : MasksDevelop :=
  s.setPoints grp ((s.heap grp).points ++ [pt])

end MasksDevelop

section Create

variable (ids : Nat → Int) (s : MasksDevelop)

/-- `ids n` is `time(NULL) + form_id++` when the form at the address `n` is made. -/
def dtMasksCreate (type : Nat) : DrawnForm where
  formid := ids s.next
  type := type
  points := []

-- The loop of `_check_id`: an id that is in use gives way to `nid`.
def checkIdLoop : Nat → Int → Int → Int
  | 0, _, formid => formid
  | n + 1, nid, formid =>
      if formid ∈ s.formids then checkIdLoop n (nid + 1) nid else formid

def checkId (form : DrawnForm) : DrawnForm :=
  { form with formid := checkIdLoop s (s.forms.length + 2) 100 form.formid }

-- `DT_MASKS_STATE_SHOW | DT_MASKS_STATE_USE`, and `DT_MASKS_STATE_UNION` if there are points.
def newPoint (grp : DrawnForm) (formid : Int) : MasksPointGroup where
  formid := formid
  parentid := grp.formid
  state := if grp.points = [] then 3 else 11

def groupCreate (module : Nat) (m : BlendModule) (type : Nat) : MasksDevelop :=
  let grp := checkId s (dtMasksCreate ids s type)
  { s.append grp with iop := s.iop.set module { m with maskId := grp.formid } }

inductive MasksShape where
  | circle
  | path
  | gradient
  | ellipse
  | brush
deriving DecidableEq, Repr

inductive Cloning where
  | none
  | clone
  | nonClone
deriving DecidableEq, Repr

def shapeType (shape : MasksShape) (cloning : Cloning) : Nat :=
  (match shape with
    | .circle => 1
    | .path => 2
    | .gradient => 16
    | .ellipse => 32
    | .brush => 64) +
  match cloning with
    | .none => 0
    | .clone => 8
    | .nonClone => 128

/-- `dt_masks_gui_form_save_creation` for a form that `dt_masks_create` made. -/
def dtMasksGuiFormSaveCreation (module : Option Nat) (type : Nat) : MasksDevelop :=
  let form := checkId s (dtMasksCreate ids s type)
  let s := s.append form
  match module.bind fun k => s.iop[k]?.map (k, ·) with
  | none => s
  | some (k, m) =>
      match s.dtMasksGetFromId m.maskId with
      | some grp => s.addPoint grp (newPoint (s.heap grp) form.formid)
      | none =>
          -- "we create a new group"
          let grp := s.next
          let s := groupCreate ids s k m (if form.isClone ∨ form.isNonClone then 12 else 4)
          s.addPoint grp (newPoint (s.heap grp) form.formid)

-- The loop of `_group_duplicate_points`.
def groupDuplicatePoints (dup : MasksDevelop → Int → Option (Int × MasksDevelop)) (dest : Nat) :
    List MasksPointGroup → MasksDevelop → Option MasksDevelop
  | [], s => some s
  | pt :: pts, s =>
      match dup s pt.formid with
      | none => none
      | some (formid, s) =>
          groupDuplicatePoints dup dest pts
            (s.addPoint dest ⟨formid, (s.heap dest).formid, pt.state⟩)

/-- `none` if it does not return within `n` calls inside each other. -/
def dtMasksFormDuplicate : Nat → MasksDevelop → Int → Option (Int × MasksDevelop)
  | 0, _, _ => none
  | n + 1, s, formid =>
      match s.dtMasksGetFromId formid with
      | none => some (-1, s)
      | some base =>
          let fbase := s.heap base
          let fdest := checkId s (dtMasksCreate ids s fbase.type)
          let dest := s.next
          let s := s.append fdest
          if fbase.groupFunctions then
            match groupDuplicatePoints (dtMasksFormDuplicate n) dest fbase.points s with
            | none => none
            | some s => some (fdest.formid, s)
          else some (fdest.formid, s)

-- The points of the rows that are selected: `DT_MASKS_STATE_USE`, and `DT_MASKS_STATE_UNION` from
-- the second one on.
def selectedPoints (parentid : Int) : Nat → List Int → List MasksPointGroup
  | _, [] => []
  | pos, id :: selection =>
      if 0 < id then
        ⟨id, parentid, if 0 < pos then 9 else 1⟩ :: selectedPoints parentid (pos + 1) selection
      else selectedPoints parentid pos selection

def treeGroup (selection : List Int) : MasksDevelop :=
  let grp := dtMasksCreate ids s 4
  s.append { grp with points := selectedPoints grp.formid 0 selection }

end Create

section Groups

variable (s : MasksDevelop)

/-- `none` if it does not return within `n` calls inside each other. -/
def findInGroup : Nat → Nat → Int → Option Int32
  | 0, _, _ => none
  | n + 1, grp, formid =>
      if (s.heap grp).isGroup = false then some 0
      else if (s.heap grp).formid = formid then some 1
      else (s.heap grp).points.foldlM (fun nb pt =>
        match s.dtMasksGetFromId pt.formid with
        | some form =>
            if (s.heap form).isGroup then (findInGroup n form formid).map (nb + ·) else some nb
        | none => some nb) 0

-- No walk over groups without a cycle goes deeper.
def depth : Nat := s.forms.length + 2

def dtMasksGroupAddForm (grp form : Nat) : MasksDevelop :=
  if (s.heap grp).isGroup = false then s
  else if (s.heap form).isGroup = false ∨
      findInGroup s (depth s) form (s.heap grp).formid = some 0 then
    s.addPoint grp (newPoint (s.heap grp) (s.heap form).formid)
  else s

/-- With the points of `dest_grp`. -/
def dtMasksGroupUngroup : Nat → List MasksPointGroup → Nat → Option (List MasksPointGroup)
  | 0, _, _ => none
  | n + 1, dest, grp =>
      if (s.heap grp).isGroup = false then some dest
      else (s.heap grp).points.foldlM (fun dest pt =>
        match s.dtMasksGetFromId pt.formid with
        | some form =>
            if (s.heap form).isGroup then dtMasksGroupUngroup n dest form
            else some (dest ++ [pt])
        | none => some dest) dest

end Groups

namespace MasksDevelop

variable {s : MasksDevelop} {i : Int} {a : Nat}

theorem mem_formids : i ∈ s.formids ↔ ∃ a ∈ s.forms, (s.heap a).formid = i := mem_map

theorem dtMasksGetFromId_eq_some (h : s.dtMasksGetFromId i = some a) :
    a ∈ s.forms ∧ (s.heap a).formid = i :=
  ⟨mem_of_find?_eq_some h, by simpa using find?_some h⟩

theorem dtMasksGetFromId_eq_none : s.dtMasksGetFromId i = none ↔ i ∉ s.formids := by
  simp [dtMasksGetFromId, mem_formids]

theorem exists_dtMasksGetFromId (h : i ∈ s.formids) : ∃ a, s.dtMasksGetFromId i = some a :=
  Option.ne_none_iff_exists'.mp fun hnone => dtMasksGetFromId_eq_none.mp hnone h

theorem dtMasksGetFromId_of_mem (hnodup : s.formids.Nodup) (ha : a ∈ s.forms) :
    s.dtMasksGetFromId (s.heap a).formid = some a :=
  (find?_key_eq_some_iff hnodup).mpr ⟨ha, rfl⟩

section Append

variable {form : DrawnForm}

theorem heap_append (ha : a ∈ s.forms) : (s.append form).heap a = s.heap a :=
  update_of_ne (Nat.ne_of_lt (s.known a ha)) _ _

theorem heap_append_next : (s.append form).heap s.next = form := update_self ..

theorem formids_append : (s.append form).formids = s.formids ++ [form.formid] := by
  show (s.forms ++ [s.next]).map _ = _
  rw [map_append, map_singleton, heap_append_next]
  congr 1
  exact map_congr_left fun a ha => congrArg DrawnForm.formid (heap_append ha)

theorem dtMasksGetFromId_append (hnew : form.formid ∉ s.formids) :
    (s.append form).dtMasksGetFromId i =
      if i = form.formid then some s.next else s.dtMasksGetFromId i := by
  have hold : s.forms.find? (fun a => ((s.append form).heap a).formid = i) =
      s.dtMasksGetFromId i := by
    apply find?_congr
    intro a ha
    rw [heap_append ha]
  show (s.forms ++ [s.next]).find? (fun a => ((s.append form).heap a).formid = i) = _
  rw [find?_append, hold]
  by_cases hi : i = form.formid
  · rw [hi, dtMasksGetFromId_eq_none.mpr hnew, find?_singleton, heap_append_next]
    simp
  · rw [if_neg hi, find?_singleton, heap_append_next, if_neg (by simpa using Ne.symm hi),
      Option.or_none]

end Append

section SetPoints

variable {grp : Nat} {points : List MasksPointGroup}

theorem heap_setPoints_self :
    (s.setPoints grp points).heap grp = { s.heap grp with points := points } :=
  update_self ..

theorem points_setPoints_self : ((s.setPoints grp points).heap grp).points = points := by
  rw [heap_setPoints_self]

theorem heap_setPoints_of_ne (ha : a ≠ grp) : (s.setPoints grp points).heap a = s.heap a :=
  update_of_ne ha _ _

theorem type_setPoints : ((s.setPoints grp points).heap a).type = (s.heap a).type := by
  by_cases ha : a = grp
  · rw [ha, heap_setPoints_self]
  · rw [heap_setPoints_of_ne ha]

theorem formid_setPoints : ((s.setPoints grp points).heap a).formid = (s.heap a).formid := by
  by_cases ha : a = grp
  · rw [ha, heap_setPoints_self]
  · rw [heap_setPoints_of_ne ha]

theorem points_setPoints_sublist (hsub : points.Sublist (s.heap grp).points) :
    ((s.setPoints grp points).heap a).points.Sublist (s.heap a).points := by
  by_cases ha : a = grp
  · rw [ha, points_setPoints_self]
    exact hsub
  · rw [heap_setPoints_of_ne ha]

theorem formids_setPoints : (s.setPoints grp points).formids = s.formids :=
  map_congr_left fun _ _ => formid_setPoints

theorem dtMasksGetFromId_setPoints :
    (s.setPoints grp points).dtMasksGetFromId i = s.dtMasksGetFromId i := by
  show s.forms.find? _ = s.forms.find? _
  simp [formid_setPoints]

end SetPoints

end MasksDevelop

inductive MasksEvent where
  | shape (module : Option Nat) (shape : MasksShape) (cloning : Cloning)
  | duplicate (formid : Int)
  | group (selection : List Int)
  | addForm (grp form : Nat)
deriving DecidableEq, Repr

def masksStep (ids : Nat → Int) (s : MasksDevelop) : MasksEvent → MasksDevelop
  | .shape module shape cloning =>
      dtMasksGuiFormSaveCreation ids s module (shapeType shape cloning)
  | .duplicate formid =>
      match dtMasksFormDuplicate ids (depth s) s formid with
      | some (_, s) => s
      | none => s
  | .group selection => treeGroup ids s selection
  | .addForm grp form =>
      if grp ∈ s.forms ∧ form ∈ s.forms then dtMasksGroupAddForm s grp form else s

end DTLite
