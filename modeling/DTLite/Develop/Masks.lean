import DTLite.Common.HistoryTable

/-! Drawn forms in `main.masks_history`: one row for each form of each history item. -/

namespace DTLite

open List HistoryItem

/-- `form->functions->point_struct_size` of a form that `dt_masks_create` makes, `none` if it has
no functions. -/
def pointStructSize (type : Nat) : Option Nat :=
  if type.testBit 0 then some 16 -- DT_MASKS_CIRCLE
  else if type.testBit 5 then some 28 -- DT_MASKS_ELLIPSE
  else if type.testBit 6 then some 44 -- DT_MASKS_BRUSH
  else if type.testBit 1 then some 36 -- DT_MASKS_PATH
  else if type.testBit 4 then some 28 -- DT_MASKS_GRADIENT
  else if type.testBit 2 then some 16 -- DT_MASKS_GROUP
  else none

-- The structs of `size` bytes that stand one after the other in `buf`.
def pointChunks (size : Nat) : Nat → Blob → List Blob
  | 0, _ => []
  | n + 1, buf => buf.take size :: pointChunks size n (buf.drop size)

-- The 32-bit word at an offset of a struct, little endian.
def blobWord (buf : Blob) (offset : Nat) : Nat :=
  (buf.getD offset 0).toNat + 256 * ((buf.getD (offset + 1) 0).toNat
    + 256 * ((buf.getD (offset + 2) 0).toNat + 256 * (buf.getD (offset + 3) 0).toNat))

-- `blend_params->mask_id`, behind the mask mode, the blend mode, the opacity and the mask combine.
def blendMaskId (blendParams : Blob) : Nat := blobWord blendParams 16

def blobInt (buf : Blob) (offset : Nat) : Int :=
  if blobWord buf offset < 2147483648 then blobWord buf offset
  else (blobWord buf offset : Int) - 4294967296

-- `type & DT_MASKS_GROUP`
def MasksForm.isGroup (form : MasksForm) : Bool := form.type.testBit 2

def dtMasksGetFromIdExt (forms : List MasksForm) (id : Int) : Option MasksForm :=
  forms.find? fun form => form.formid == id

-- `formid` of a `dt_masks_point_group_t`
def pointFormid (pt : Blob) : Int := blobInt pt 0

-- The ids that the points of the group with the id `id` name; some may be of no form.
def groupMembers (forms : List MasksForm) (id : Int) : List Int :=
  match dtMasksGetFromIdExt forms id with
  | none => []
  | some form => if form.isGroup then form.points.map pointFormid else []

variable {forms : List MasksForm}

theorem dtMasksGetFromIdExt_eq_some {id : Int} {form : MasksForm}
    (h : dtMasksGetFromIdExt forms id = some form) : form ∈ forms ∧ form.formid = id :=
  ⟨mem_of_find?_eq_some h, by simpa using find?_some h⟩

theorem mem_groupMembers {i j : Int} : j ∈ groupMembers forms i ↔
    ∃ form, dtMasksGetFromIdExt forms i = some form ∧ form.isGroup = true ∧
      ∃ pt ∈ form.points, pointFormid pt = j := by
  unfold groupMembers
  cases dtMasksGetFromIdExt forms i with
  | none => simp
  | some form => cases hgroup : form.isGroup <;> simp

theorem mem_pointFormids_of_mem_groupMembers {i j : Int} (h : j ∈ groupMembers forms i) :
    j ∈ forms.flatMap fun form => form.points.map pointFormid := by
  obtain ⟨form, hget, -, pt, hpt, rfl⟩ := mem_groupMembers.mp h
  exact mem_flatMap.mpr
    ⟨form, (dtMasksGetFromIdExt_eq_some hget).1, mem_map_of_mem hpt⟩

def masksRow (imgid : ImgId) (num : Int) (form : MasksForm) (size : Nat) : MasksRow where
  imgid := imgid
  num := some num
  formid := some form.formid
  form := some form.type
  name := some form.name
  version := some form.version
  points := some (form.points.flatMap (List.take size))
  pointsCount := some form.points.length
  source := some (form.source.take 8)

variable (db : Database)

/-- The statement is only stepped for a form that has functions. -/
def dtMasksWriteMasksHistoryItem (imgid : ImgId) (num : Int) (form : MasksForm) :
    Database :=
  match pointStructSize form.type with
  | some size => db.insertMasks [masksRow imgid num form size]
  | none => db

-- "and now we read the blob": no points for a form without functions.
def pointsOfRow (type : Nat) (row : MasksRow) : List Blob :=
  match pointStructSize type with
  | some size => pointChunks size (columnInt row.pointsCount).toNat (row.points.getD [])
  | none => []

-- The type column as an `unsigned`.
def typeOfRow (row : MasksRow) : Nat := (columnInt row.form % 4294967296).toNat

def formOfRow (row : MasksRow) : MasksForm where
  formid := columnInt row.formid
  type := typeOfRow row
  name := row.name.getD ""
  version := columnInt row.version
  source := (row.source.getD []).take 8
  points := pointsOfRow (typeOfRow row) row

-- `dt_masks_read_masks_history` between two rows; an item is its position in the history.
structure MasksReading where
  history : List (HistoryItem ModuleRef)
  histItem : Option Nat
  histItemLast : Option Nat
  numPrev : Int

-- `hist_item->forms = g_list_append(hist_item->forms, form)`.
def addForm (form : MasksForm) (h : HistoryItem ModuleRef) : HistoryItem ModuleRef :=
  { h with forms := h.forms ++ [form] }

def readMasksRow (historyEnd : Nat) (s : MasksReading) (row : MasksRow) : MasksReading :=
  let num := columnInt row.num
  let histItem :=
    if s.numPrev ≠ num then s.history.findIdx? fun h => h.num == num else s.histItem
  { history := match histItem with
      | some i => s.history.modify i (addForm (formOfRow row))
      | none => s.history
    histItem := histItem
    histItemLast := if num < historyEnd then histItem else s.histItemLast
    numPrev := num }

variable (dev : Develop)

def readMasksRows (rows : List MasksRow) : MasksReading :=
  rows.foldl (readMasksRow dev.historyEnd) ⟨dev.history, none, none, -1⟩

def dtMasksReadMasksHistory (imgid : ImgId) : Develop :=
  let s := readMasksRows dev (db.masksByNum imgid)
  { dev with
    history := s.history
    forms := ((s.histItemLast.bind (s.history[·]?)).map HistoryItem.forms).getD [] }

def HistoryItem.dropForms {μ : Type} (h : HistoryItem μ) : HistoryItem μ := { h with forms := [] }

theorem readMasksRow_dropForms (historyEnd : Nat) (s : MasksReading) (row : MasksRow) :
    (readMasksRow historyEnd s row).history.map dropForms = s.history.map dropForms := by
  unfold readMasksRow
  dsimp only
  split
  · apply ext_getElem
    · simp
    · intro k hk hk'
      rw [getElem_map, getElem_map, getElem_modify]
      split
      · rfl
      · rfl
  · rfl

theorem readMasksRows_dropForms (rows : List MasksRow) :
    (readMasksRows dev rows).history.map dropForms = dev.history.map dropForms := by
  suffices h : ∀ s : MasksReading,
      (rows.foldl (readMasksRow dev.historyEnd) s).history.map dropForms =
        s.history.map dropForms from h _
  intro s
  induction rows generalizing s with
  | nil => rfl
  | cons row rows ih => rw [foldl_cons, ih, readMasksRow_dropForms]

theorem dtMasksReadMasksHistory_dropForms (imgid : ImgId) :
    (dtMasksReadMasksHistory db dev imgid).history.map dropForms = dev.history.map dropForms :=
  readMasksRows_dropForms ..

/-! ## Reading back what was written -/

/-- The sizes that the arrays and structs of a form have. -/
structure MasksForm.Sized (form : MasksForm) : Prop where
  type_lt : form.type < 4294967296
  source : form.source.length = 8
  points : ∀ size ∈ pointStructSize form.type, ∀ point ∈ form.points, point.length = size

theorem pointChunks_flatMap_take {size : Nat} {points : List Blob}
    (h : ∀ point ∈ points, point.length = size) :
    pointChunks size points.length (points.flatMap (take size)) = points := by
  induction points with
  | nil => rfl
  | cons point points ih =>
    have hpoint : point.length = size := h point mem_cons_self
    rw [flatMap_cons, take_of_length_le (le_of_eq hpoint), length_cons, pointChunks,
      take_append_of_le_length (le_of_eq hpoint.symm),
      take_of_length_le (le_of_eq hpoint), drop_left' hpoint,
      ih fun p hp => h p (mem_cons_of_mem _ hp)]

theorem formOfRow_masksRow {form : MasksForm} {size : Nat} (hform : form.Sized)
    (hsize : pointStructSize form.type = some size) (imgid : ImgId) (num : Int) :
    formOfRow (masksRow imgid num form size) = form := by
  have htype : typeOfRow (masksRow imgid num form size) = form.type := by
    show ((form.type : Int) % 4294967296).toNat = form.type
    have := hform.type_lt
    omega
  have hpoints : pointsOfRow form.type (masksRow imgid num form size) = form.points := by
    rw [pointsOfRow, hsize]
    exact pointChunks_flatMap_take (hform.points size hsize)
  have hsource : (form.source.take 8).take 8 = form.source := by
    rw [take_take, Nat.min_self, take_of_length_le (le_of_eq hform.source)]
  unfold formOfRow
  rw [htype, hpoints]
  show MasksForm.mk form.formid form.type form.name form.version ((form.source.take 8).take 8)
    form.points = form
  rw [hsource]

/-- Where the items are numbered by their positions, and the item at hand is the one of the last
number seen. -/
structure MasksReading.Ok (s : MasksReading) : Prop where
  num : ∀ (k : Nat) (h : HistoryItem ModuleRef), s.history[k]? = some h → h.num = k
  histItem : s.histItem = s.history.findIdx? fun h => h.num == s.numPrev

theorem MasksReading.Ok.findIdx? {s : MasksReading} (hs : s.Ok) {num : Int} {k : Nat}
    {h : HistoryItem ModuleRef} (hk : s.history[k]? = some h) :
    s.history.findIdx? (fun h => h.num == num) = some k ↔ num = k := by
  obtain ⟨hlt, hget⟩ := List.getElem?_eq_some_iff.mp hk
  rw [List.findIdx?_eq_some_iff_getElem]
  constructor
  · rintro ⟨_, hnum, _⟩
    rw [hget] at hnum
    rw [← eq_of_beq hnum]
    exact hs.num k h hk
  · intro hnum
    refine ⟨hlt, ?_, ?_⟩
    · rw [hget, hs.num k h hk, hnum]
      exact beq_self_eq_true _
    · intro j hj
      rw [hs.num j _ (getElem?_eq_getElem (hj.trans hlt))]
      simp only [beq_iff_eq]
      omega

theorem findIdx?_num_congr {a b : List (HistoryItem ModuleRef)}
    (h : a.map dropForms = b.map dropForms) (num : Int) :
    a.findIdx? (fun h => h.num == num) = b.findIdx? fun h => h.num == num := by
  have hmap : ∀ l : List (HistoryItem ModuleRef),
      (l.map dropForms).findIdx? (fun h => h.num == num) = l.findIdx? fun h => h.num == num := by
    intro l
    rw [findIdx?_map]
    rfl
  rw [← hmap a, ← hmap b, h]

section Step

variable {s : MasksReading} {historyEnd : Nat} {row : MasksRow}

theorem readMasksRow_histItem (hs : s.Ok) : (readMasksRow historyEnd s row).histItem =
    s.history.findIdx? fun h => h.num == columnInt row.num := by
  show (if s.numPrev ≠ columnInt row.num then _ else s.histItem) = _
  by_cases hnum : s.numPrev = columnInt row.num
  · rw [if_neg (not_not.mpr hnum), hs.histItem, hnum]
  · rw [if_pos hnum]

theorem readMasksRow_getElem? (hs : s.Ok) {k : Nat} {h : HistoryItem ModuleRef}
    (hk : s.history[k]? = some h) :
    (readMasksRow historyEnd s row).history[k]? =
      some (if columnInt row.num = k then addForm (formOfRow row) h else h) := by
  have hhistory : (readMasksRow historyEnd s row).history =
      match (readMasksRow historyEnd s row).histItem with
      | some i => s.history.modify i (addForm (formOfRow row))
      | none => s.history := rfl
  rw [hhistory, readMasksRow_histItem hs]
  have hfind := @MasksReading.Ok.findIdx? s hs (columnInt row.num) k h hk
  cases hidx : s.history.findIdx? fun h => h.num == columnInt row.num with
  | none =>
    rw [hidx] at hfind
    rw [if_neg fun hnum => absurd (hfind.mpr hnum) (by simp)]
    exact hk
  | some i =>
    rw [hidx, Option.some.injEq] at hfind
    rw [getElem?_modify, hk]
    by_cases hi : i = k
    · simp [hi, hfind.mp hi]
    · simp [hi, mt hfind.mpr hi]

theorem readMasksRow_ok (hs : s.Ok) : (readMasksRow historyEnd s row).Ok := by
  have hdrop := readMasksRow_dropForms historyEnd s row
  constructor
  · intro k h hk
    have hk' := congrArg (·[k]?) hdrop
    simp only [getElem?_map, hk] at hk'
    obtain ⟨h₀, hk₀, heq⟩ := Option.map_eq_some_iff.mp hk'.symm
    show h.dropForms.num = k
    rw [← heq]
    exact hs.num k h₀ hk₀
  · rw [readMasksRow_histItem hs]
    exact (findIdx?_num_congr hdrop _).symm

end Step

/-- Each item gets the forms of the rows with its number, in their order. -/
theorem readMasksRows_getElem? {historyEnd : Nat} (rows : List MasksRow) {s : MasksReading}
    (hs : s.Ok) {k : Nat} {h : HistoryItem ModuleRef} (hk : s.history[k]? = some h) :
    (rows.foldl (readMasksRow historyEnd) s).history[k]? =
      some { h with
        forms := h.forms ++ (rows.filter fun row => columnInt row.num = k).map formOfRow } := by
  induction rows generalizing s h with
  | nil => simpa using hk
  | cons row rows ih =>
    rw [foldl_cons, ih (readMasksRow_ok hs) (readMasksRow_getElem? hs hk)]
    by_cases hnum : columnInt row.num = k
    · simp [hnum, addForm]
    · simp [hnum]

end DTLite
