import DTLite.Common.FilmRemove
import DTLite.Common.IdleCache
import DTLite.Common.ImageCache

/-!
# Removing an image

`dt_image_remove` drops the image from the image cache "first, or else the cache will look for imgid
in sql". But then it takes the image out of its group, and that goes through the cache again.
-/

namespace DTLite

open Reasoning List Option Function Cache

inductive MemoryTable
  | colorLabelsTemp
  | collectedImages
  | tmpSelection
  | history
  | undoHistory
  | undoMasksHistory
  | undoModuleOrder
deriving DecidableEq, Repr

/-- A row of `main.images`, and what the cache has of it in a `dt_image_t`. -/
structure CachedRow where
  id : Int32
  groupId : Int32
  -- `DT_IMAGE_LOCAL_COPY` in `flags`
  localCopy : Bool
deriving DecidableEq, Repr

/-- The image cache with the database behind it. Other rows are the id of their image and a rest. -/
structure ImageStore (ρ : Type) where
  cache : Cache
  -- `entry->data`
  images : EntryRef → CachedRow
  rows : List CachedRow
  tables : SideTable → List (Int32 × ρ)
  memory : MemoryTable → List (Int32 × ρ)

/-! ## The calls

They are `none` where the code does not come back: it waits for a lock that somebody else holds, or
it reads an image through a `NULL` pointer. -/

namespace ImageStore

variable {ρ : Type} (setup : ImageSetup) (t : ThreadId) (s : ImageStore ρ) (imgid : Int32)

/-- `dt_image_cache_allocate`. -/
def allocate : CachedRow :=
  match s.rows.find? fun row => row.id = imgid with
  | some row => row
  | none => ⟨-1, -1, false⟩

/-- `dt_image_cache_get`. -/
def get (mode : LockMode) : Option (ImageStore ρ × EntryRef) :=
  if imgid ≤ 0 then none
  else
    let got := dtCacheGet setup.cacheSetup s.cache imgid.toUInt32 mode t setup.imageSize
    got.2.map fun ref =>
      let images := if (s.cache.hashtable imgid.toUInt32).isSome then s.images
        else update s.images ref (s.allocate imgid)
      ({ s with cache := got.1, images := images }, ref)

/-- `dt_image_cache_read_release`. -/
def readRelease (ref : EntryRef) : ImageStore ρ :=
  if (s.images ref).id ≤ 0 then s else { s with cache := dtCacheRelease s.cache ref t }

-- `UPDATE main.images SET … WHERE id = ?32`.
def updateRow (img : CachedRow) : List CachedRow :=
  s.rows.map fun row =>
    if row.id = img.id then { row with groupId := img.groupId, localCopy := img.localCopy } else row

/-- `dt_image_cache_write_release`. -/
def writeRelease (ref : EntryRef) : ImageStore ρ :=
  if (s.images ref).id ≤ 0 then s
  else { s with cache := dtCacheRelease s.cache ref t, rows := s.updateRow (s.images ref) }

def readImage : Option (ImageStore ρ × CachedRow) :=
  (s.get setup t imgid .read).map fun got => (got.1.readRelease t got.2, got.1.images got.2)

-- `img->group_id = …` in the cache.
def setGroup (group : Int32) : Option (ImageStore ρ) :=
  (s.get setup t imgid .write).map fun got =>
    let img := { got.1.images got.2 with groupId := group }
    { got.1 with images := update got.1.images got.2 img }.writeRelease t got.2

/-- `dt_image_cache_remove`. -/
def cacheRemove : Option (ImageStore ρ) :=
  let cache := dtCacheRemove s.cache imgid.toUInt32
  if (cache.hashtable imgid.toUInt32).isSome then none else some { s with cache := cache }

/-- With what it returns. What it does to a local copy is `reset`. -/
def dtImageLocalCopyReset (reset : ImageStore ρ → Option (ImageStore ρ × Bool)) :
    Option (ImageStore ρ × Bool) :=
  (s.readImage setup t imgid).bind fun got =>
    if got.2.localCopy then reset got.1 else some (got.1, false)

-- `SELECT id FROM main.images WHERE group_id = ?1 AND id != ?2`.
def othersOf (group : Int32) : List Int32 :=
  (s.rows.filter fun row => row.groupId = group ∧ row.id ≠ imgid).map (·.id)

-- One turn of the loop over them; the first one leads the others.
def regroup (state : ImageStore ρ × Int32) (other : Int32) : Option (ImageStore ρ × Int32) :=
  let newGroupId := if state.2 = -1 then other else state.2
  (state.1.setGroup setup t other newGroupId).map fun s => (s, newGroupId)

-- `UPDATE main.images SET group_id = ?1 WHERE group_id = ?2 AND id != ?3`.
def updateGroup (newGroup group : Int32) : ImageStore ρ :=
  { s with rows := s.rows.map fun row =>
      if row.groupId = group ∧ row.id ≠ imgid then { row with groupId := newGroup } else row }

def dtGroupingRemoveFromGroup : Option (ImageStore ρ) :=
  (s.readImage setup t imgid).bind fun got =>
    if got.2.groupId = imgid then
      ((got.1.othersOf imgid imgid).foldlM (regroup setup t) (got.1, -1)).map fun state =>
        state.1.updateGroup imgid state.2 imgid
    else got.1.setGroup setup t imgid imgid

-- `DELETE FROM … WHERE imgid = ?1`, from the tables of the library.
def deleteRows : ImageStore ρ :=
  { s with
    rows := s.rows.filter fun row => row.id ≠ imgid
    tables := fun table => (s.tables table).filter fun row => row.1 ≠ imgid }

def dtImageRemove (reset : ImageStore ρ → Option (ImageStore ρ × Bool)) : Option (ImageStore ρ) :=
  (s.dtImageLocalCopyReset setup t imgid reset).bind fun copy =>
    if copy.2 then some copy.1
    else
      (copy.1.readImage setup t imgid).bind fun got =>
        (got.1.cacheRemove imgid).bind fun s =>
          (s.dtGroupingRemoveFromGroup setup t imgid).map fun s => s.deleteRows imgid

/-- The image exists, is not locked by any thread and has no local copy, in the table and in the
cache. -/
structure Removable : Prop where
  consistent : s.cache.Consistent
  positive : 0 < imgid
  nodup : (s.rows.map (·.id)).Nodup
  row : ∃ row ∈ s.rows, row.id = imgid ∧ row.localCopy = false
  unlocked : s.cache.Unlocked imgid.toUInt32
  cached : ∀ ref, s.cache.hashtable imgid.toUInt32 = some ref →
    (s.images ref).id = imgid ∧ (s.images ref).localCopy = false

/-- The entries of the cache are those of their images. -/
def HoldsImages : Prop :=
  ∀ key ref, s.cache.hashtable key = some ref → (s.images ref).id = key.toInt32

/-- No image is locked at all, and the entries are what loading them gives. -/
structure Quiet : Prop where
  idle : s.cache.Idle setup.imageSize
  held : s.HoldsImages
  positive : ∀ row ∈ s.rows, 0 < row.id

def Leads : Prop := ∃ row ∈ s.rows, row.id = imgid ∧ row.groupId = imgid

/-- The group does not fit into the cache: one of its images is loaded when those before it and the
leader fill it. -/
def Overflows : Prop :=
  ∃ before other after, s.othersOf imgid imgid = before ++ other :: after ∧
    s.cache.hashtable other.toUInt32 = none ∧
    ∀ n, before.length < n → n ≤ s.cache.lru.length + 1 + before.length →
      setup.cache.aboveQuota (UInt64.ofNat n * setup.imageSize) = true ∧
        setup.cache.belowRatio (4 / 5) (UInt64.ofNat n * setup.imageSize) = false

def NotInMemory : Prop := ∀ table, ∀ row ∈ s.memory table, row.1 ≠ imgid

/-- No table has a row of the image, and the cache has no entry of it. -/
structure Gone : Prop where
  images : ∀ row ∈ s.rows, row.id ≠ imgid
  tables : ∀ table, ∀ row ∈ s.tables table, row.1 ≠ imgid
  memory : s.NotInMemory imgid
  cache : s.cache.hashtable imgid.toUInt32 = none

def loaded : CachedRow :=
  match s.cache.hashtable imgid.toUInt32 with
  | some ref => s.images ref
  | none => s.allocate imgid

/-- What a get and its release leave: the image is in the cache, with this content. -/
structure Accessed (row : CachedRow) (s' : ImageStore ρ) : Prop where
  visited : ∃ ref, s.cache.Visited imgid.toUInt32 ref s'.cache ∧ s'.images ref = row ∧
    ∀ r, r ≠ ref → s'.images r = s.images r
  used : s.cache.Idle setup.imageSize → s'.cache.Idle setup.imageSize ∧
    s'.cache.keys = use (Cache.keeps setup.cacheSetup setup.imageSize) s.cache.keys imgid.toUInt32
  tables : s'.tables = s.tables
  memory : s'.memory = s.memory

variable {setup t s imgid} {s' : ImageStore ρ}

theorem exists_get (setup : ImageSetup) (t : ThreadId) (hpos : 0 < imgid) (h : s.cache.Consistent)
    (hfree : s.cache.Unlocked imgid.toUInt32) (mode : LockMode) :
    ∃ s' ref, s.get setup t imgid mode = some (s', ref) ∧ s'.images ref = s.loaded imgid ∧
      s'.rows = s.rows ∧
      ∀ row rows, Accessed setup s imgid row { s' with
        cache := dtCacheRelease s'.cache ref t
        images := update s'.images ref row
        rows := rows } := by
  obtain ⟨c', ref, hget, hsame, hvisited⟩ := h.visit hfree setup.cacheSetup mode t setup.imageSize
  refine ⟨{ s with
    cache := c'
    images := if (s.cache.hashtable imgid.toUInt32).isSome then s.images
      else update s.images ref (s.allocate imgid) }, ref, ?_, ?_, rfl, fun row rows => ?_⟩
  · rw [get, if_neg (Int32.not_le.mpr hpos), hget]
    rfl
  · rw [loaded]
    cases hkey : s.cache.hashtable imgid.toUInt32 with
    | some r => simp [hsame r hkey]
    | none => simp
  · refine ⟨⟨ref, hvisited, update_self .., fun r hr => ?_⟩, ?_, rfl, rfl⟩
    · dsimp only
      rw [update_of_ne hr]
      split
      · rfl
      · exact update_of_ne hr _ _
    · exact fun hidle => hidle.visit rfl hget

theorem exists_readImage (setup : ImageSetup) (t : ThreadId) (hpos : 0 < imgid)
    (h : s.cache.Consistent) (hfree : s.cache.Unlocked imgid.toUInt32)
    (hid : (s.loaded imgid).id = imgid) :
    ∃ s', s.readImage setup t imgid = some (s', s.loaded imgid) ∧ s'.rows = s.rows ∧
      Accessed setup s imgid (s.loaded imgid) s' := by
  obtain ⟨s', ref, hget, hloaded, hrows, haccessed⟩ := exists_get setup t hpos h hfree .read
  refine ⟨{ s' with cache := dtCacheRelease s'.cache ref t }, ?_, hrows, ?_⟩
  · rw [readImage, hget, map_some, readRelease, hloaded, hid, if_neg (Int32.not_le.mpr hpos)]
  · have hread := haccessed (s'.images ref) s'.rows
    rw [update_eq_self, hloaded] at hread
    exact hread

theorem exists_setGroup (setup : ImageSetup) (t : ThreadId) (hpos : 0 < imgid)
    (h : s.cache.Consistent) (hfree : s.cache.Unlocked imgid.toUInt32)
    (hid : (s.loaded imgid).id = imgid) (group : Int32) :
    ∃ s', s.setGroup setup t imgid group = some s' ∧
      s'.rows = s.updateRow { s.loaded imgid with groupId := group } ∧
      Accessed setup s imgid { s.loaded imgid with groupId := group } s' := by
  obtain ⟨s', ref, hget, hloaded, hrows, haccessed⟩ := exists_get setup t hpos h hfree .write
  refine ⟨_, ?_, rfl, haccessed _ _⟩
  simp [setGroup, hget, writeRelease, hloaded, hid, Int32.not_le.mpr hpos, updateRow, hrows]

/-! ## The image comes back -/

theorem allocate_of_mem (hnodup : (s.rows.map (·.id)).Nodup) {row : CachedRow}
    (hrow : row ∈ s.rows) : s.allocate row.id = row := by
  have hsome : (s.rows.find? fun r => r.id = row.id).isSome :=
    find?_isSome.mpr ⟨row, hrow, decide_eq_true rfl⟩
  obtain ⟨found, hfound⟩ := isSome_iff_exists.mp hsome
  have hid : found.id = row.id := by simpa using find?_some hfound
  rw [allocate, hfound]
  exact inj_on_of_nodup_map hnodup (mem_of_find?_eq_some hfound) hrow hid

namespace Accessed

variable {row : CachedRow}

section

variable (h : Accessed setup s imgid row s')
include h

theorem consistent : s'.cache.Consistent := by
  obtain ⟨ref, hvisited, -⟩ := h.visited
  exact hvisited.consistent

theorem unlocked : s'.cache.Unlocked imgid.toUInt32 := by
  obtain ⟨ref, hvisited, -⟩ := h.visited
  exact hvisited.unlocked

theorem loaded_eq : s'.loaded imgid = row := by
  obtain ⟨ref, hvisited, hrow, -⟩ := h.visited
  rw [loaded, hvisited.found]
  exact hrow

theorem holdsImages (hid : row.id = imgid) (hheld : s.HoldsImages) : s'.HoldsImages := by
  obtain ⟨ref, hvisited, hrow, hothers⟩ := h.visited
  intro key r hfound
  by_cases hkey : key = imgid.toUInt32
  · rw [hkey, hvisited.found] at hfound
    rw [← some.inj hfound, hrow, hid, hkey]
    rfl
  · obtain ⟨hbefore, hne⟩ := hvisited.others key r hkey hfound
    rw [hothers r hne]
    exact hheld key r hbefore

end

end Accessed

/-- The image is not in the cache any more; nothing else is new there. -/
structure Dropped (setup : ImageSetup) (s : ImageStore ρ) (imgid : Int32) (s' : ImageStore ρ) :
    Prop where
  consistent : s'.cache.Consistent
  missing : s'.cache.hashtable imgid.toUInt32 = none
  others : ∀ key ref, s'.cache.hashtable key = some ref → ∃ ref, s.cache.hashtable key = some ref
  idle : s.cache.Idle setup.imageSize → s'.cache.Idle setup.imageSize
  holdsImages : s.HoldsImages → s'.HoldsImages
  rows : s'.rows = s.rows
  tables : s'.tables = s.tables
  memory : s'.memory = s.memory

theorem Removable.loaded_eq (h : Removable s imgid) :
    (s.loaded imgid).id = imgid ∧ (s.loaded imgid).localCopy = false := by
  rw [loaded]
  cases hkey : s.cache.hashtable imgid.toUInt32 with
  | some ref => exact h.cached ref hkey
  | none =>
    obtain ⟨row, hrow, hid, hcopy⟩ := h.row
    rw [← hid, allocate_of_mem h.nodup hrow]
    exact ⟨rfl, hcopy⟩

/-- The way to the group: the image is read twice and dropped. -/
theorem Removable.dtImageRemove_eq (h : Removable s imgid) (setup : ImageSetup) (t : ThreadId)
    (reset : ImageStore ρ → Option (ImageStore ρ × Bool)) :
    ∃ s', Dropped setup s imgid s' ∧ s.dtImageRemove setup t imgid reset =
      (s'.dtGroupingRemoveFromGroup setup t imgid).map fun s => s.deleteRows imgid := by
  obtain ⟨hid, hcopy⟩ := h.loaded_eq
  obtain ⟨s₁, hread₁, hrows₁, h₁⟩ := exists_readImage setup t h.positive h.consistent h.unlocked hid
  have hid₁ : (s₁.loaded imgid).id = imgid := h₁.loaded_eq ▸ hid
  obtain ⟨s₂, hread₂, hrows₂, h₂⟩ :=
    exists_readImage setup t h.positive h₁.consistent h₁.unlocked hid₁
  have htable := hashtable_remove h₂.unlocked
  have hmissing : (dtCacheRemove s₂.cache imgid.toUInt32).hashtable imgid.toUInt32 = none := by
    rw [htable, update_self]
  -- what is left is what was there before, but for the image
  have hsub : ∀ key ref, (dtCacheRemove s₂.cache imgid.toUInt32).hashtable key = some ref →
      key ≠ imgid.toUInt32 ∧ s₂.cache.hashtable key = some ref := by
    intro key ref hfound
    rw [htable, update_apply] at hfound
    split at hfound
    · cases hfound
    next hne => exact ⟨hne, hfound⟩
  refine ⟨{ s₂ with cache := dtCacheRemove s₂.cache imgid.toUInt32 }, ?_, ?_⟩
  · constructor
    · exact h₂.consistent.remove _
    · exact hmissing
    · intro key ref hfound
      obtain ⟨hne, hfound⟩ := hsub key ref hfound
      obtain ⟨ref₁, hvisited₁, -⟩ := h₁.visited
      obtain ⟨ref₂, hvisited₂, -⟩ := h₂.visited
      exact ⟨ref, (hvisited₁.others key ref hne (hvisited₂.others key ref hne hfound).1).1⟩
    · exact fun hidle => (h₂.used (h₁.used hidle).1).1.remove _
    · intro hheld key ref hfound
      exact h₂.holdsImages hid₁ (h₁.holdsImages hid hheld) key ref (hsub key ref hfound).2
    · exact hrows₂.trans hrows₁
    · exact h₂.tables.trans h₁.tables
    · exact h₂.memory.trans h₁.memory
  · rw [dtImageRemove, dtImageLocalCopyReset, hread₁, bind_some, hcopy]
    simp [hread₂, cacheRemove, hmissing]

variable {s₀ : ImageStore ρ} {row : CachedRow}

/-- The group is asked for through the cache, which loads the image again. -/
theorem Dropped.removeFromGroup_eq (h : Dropped setup s₀ imgid s)
    (hpos : 0 < imgid) (hnodup : (s.rows.map (·.id)).Nodup) (hrow : row ∈ s.rows)
    (hid : row.id = imgid) (t : ThreadId) :
    ∃ s', Accessed setup s imgid row s' ∧ s'.rows = s.rows ∧
      s.dtGroupingRemoveFromGroup setup t imgid =
        if row.groupId = imgid then
          ((s.othersOf imgid imgid).foldlM (regroup setup t) (s', -1)).map fun state =>
            state.1.updateGroup imgid state.2 imgid
        else s'.setGroup setup t imgid imgid := by
  have hloaded : s.loaded imgid = row := by
    rw [loaded, h.missing, ← hid]
    exact allocate_of_mem hnodup hrow
  have hfree : s.cache.Unlocked imgid.toUInt32 := by
    intro ref hfound
    cases h.missing.symm.trans hfound
  obtain ⟨s', hread, hrows, haccessed⟩ :=
    exists_readImage setup t hpos h.consistent hfree (hloaded ▸ hid)
  rw [hloaded] at hread haccessed
  refine ⟨s', haccessed, hrows, ?_⟩
  rw [dtGroupingRemoveFromGroup, hread, bind_some, othersOf, hrows, ← othersOf]

-- What the loop needs, and keeps: the images are there, in the table and in the cache.
structure Regrouping (setup : ImageSetup) (s₀ s : ImageStore ρ) : Prop where
  idle : s.cache.Idle setup.imageSize
  held : s.HoldsImages
  ids : s.rows.map (·.id) = s₀.rows.map (·.id)
  tables : s.tables = s₀.tables
  memory : s.memory = s₀.memory

theorem ids_updateRow (img : CachedRow) : (s.updateRow img).map (·.id) = s.rows.map (·.id) := by
  rw [updateRow, List.map_map]
  apply map_congr_left
  intro row _
  show (if row.id = img.id then _ else row).id = row.id
  split <;> rfl

theorem Regrouping.loaded_id (h : Regrouping setup s₀ s)
    (hnodup : (s₀.rows.map (·.id)).Nodup) (hmem : imgid ∈ s₀.rows.map (·.id)) :
    (s.loaded imgid).id = imgid := by
  rw [loaded]
  cases hkey : s.cache.hashtable imgid.toUInt32 with
  | some ref => exact h.held _ ref hkey
  | none =>
    rw [← h.ids] at hnodup hmem
    obtain ⟨row, hrow, rfl⟩ := mem_map.mp hmem
    rw [allocate_of_mem hnodup hrow]

theorem Regrouping.setGroup (h : Regrouping setup s₀ s)
    (hnodup : (s₀.rows.map (·.id)).Nodup) (hmem : imgid ∈ s₀.rows.map (·.id)) (hpos : 0 < imgid)
    (t : ThreadId) (group : Int32) :
    ∃ s', s.setGroup setup t imgid group = some s' ∧ Regrouping setup s₀ s' ∧
      s'.cache.keys = use (keeps setup.cacheSetup setup.imageSize) s.cache.keys imgid.toUInt32 := by
  have hid := h.loaded_id hnodup hmem
  obtain ⟨s', hset, hrows, haccessed⟩ :=
    exists_setGroup setup t hpos h.idle.consistent (h.idle.unlocked _) hid group
  obtain ⟨hidle, hkeys⟩ := haccessed.used h.idle
  refine ⟨s', hset, ⟨hidle, haccessed.holdsImages hid h.held, ?_, ?_, ?_⟩, hkeys⟩
  · rw [hrows, ids_updateRow, h.ids]
  · rw [haccessed.tables, h.tables]
  · rw [haccessed.memory, h.memory]

-- The induction is on the images that are still to come.
theorem Regrouping.foldlM (hnodup : (s₀.rows.map (·.id)).Nodup)
    (hpos : ∀ row ∈ s₀.rows, 0 < row.id) (t : ThreadId) (others : List Int32) :
    ∀ (s : ImageStore ρ) (group : Int32), Regrouping setup s₀ s →
      others ⊆ s₀.rows.map (·.id) →
      ∃ s' group', others.foldlM (regroup setup t) (s, group) = some (s', group') ∧
        Regrouping setup s₀ s' ∧ s'.cache.keys = (others.map Int32.toUInt32).foldl
          (use (keeps setup.cacheSetup setup.imageSize)) s.cache.keys := by
  induction others with
  | nil => exact fun s group h _ => ⟨s, group, rfl, h, rfl⟩
  | cons other others ih =>
    intro s group h hsub
    obtain ⟨hother, hrest⟩ := cons_subset.mp hsub
    obtain ⟨row, hrow, rfl⟩ := mem_map.mp hother
    obtain ⟨s₁, hset, h₁, hkeys₁⟩ :=
      h.setGroup hnodup hother (hpos row hrow) t (if group = -1 then row.id else group)
    obtain ⟨s', group', hfold, h', hkeys'⟩ := ih s₁ _ h₁ hrest
    refine ⟨s', group', ?_, h', ?_⟩
    · rw [foldlM_cons, regroup, hset]
      exact hfold
    · rw [hkeys', hkeys₁]
      rfl

theorem get_memory {mode : LockMode} {ref : EntryRef}
    (h : s.get setup t imgid mode = some (s', ref)) : s'.memory = s.memory := by
  rw [get] at h
  split at h
  · cases h
  · obtain ⟨ref', -, heq⟩ := map_eq_some_iff.mp h
    rw [← (Prod.mk.inj heq).1]

theorem writeRelease_memory (t : ThreadId) (ref : EntryRef) :
    (s.writeRelease t ref).memory = s.memory := by
  rw [writeRelease]
  split <;> rfl

theorem setGroup_memory {group : Int32} (h : s.setGroup setup t imgid group = some s') :
    s'.memory = s.memory := by
  obtain ⟨⟨s₁, ref⟩, hget, rfl⟩ := map_eq_some_iff.mp h
  have hmemory := get_memory hget
  rw [writeRelease_memory]
  exact hmemory

theorem foldlM_regroup_memory (others : List Int32) :
    ∀ state state' : ImageStore ρ × Int32, others.foldlM (regroup setup t) state = some state' →
      state'.1.memory = state.1.memory := by
  induction others with
  | nil =>
    intro state state' h
    cases h
    rfl
  | cons other others ih =>
    intro state state' h
    obtain ⟨state₁, hregroup, hrest⟩ := bind_eq_some_iff.mp h
    obtain ⟨s₁, hset, rfl⟩ := map_eq_some_iff.mp hregroup
    exact (ih _ _ hrest).trans (setGroup_memory hset)

/-! ## When nothing is left -/

theorem mem_othersOf {group other : Int32} (h : other ∈ s.othersOf imgid group) :
    other ∈ s.rows.map (·.id) ∧ other ≠ imgid := by
  obtain ⟨row, hrow, rfl⟩ := mem_map.mp h
  obtain ⟨hrow, hp⟩ := mem_filter.mp hrow
  exact ⟨mem_map_of_mem hrow, (of_decide_eq_true hp).2⟩

theorem nodup_othersOf (h : (s.rows.map (·.id)).Nodup) (group : Int32) :
    (s.othersOf imgid group).Nodup := h.sublist (filter_sublist.map _)

theorem toUInt32_injective : Injective Int32.toUInt32 :=
  fun _ _ => congrArg UInt32.toInt32

theorem Dropped.length_keys_le (h : Dropped setup s imgid s') (hconsistent : s.cache.Consistent) :
    s'.cache.keys.length ≤ s.cache.lru.length := by
  have hsub : s'.cache.keys ⊆ s.cache.keys := by
    intro key hkey
    obtain ⟨ref, hfound⟩ := h.consistent.mem_keys.mp hkey
    exact hconsistent.mem_keys.mpr (h.others key ref hfound)
  have hlength : s.cache.keys.length = s.cache.lru.length := length_map ..
  rw [← hlength]
  exact (h.consistent.nodup_keys.subperm hsub).length_le

/-- The image is dropped again while the rest of its group is loaded. -/
theorem Dropped.not_mem_keys {s₀ s₁ : ImageStore ρ} (h : Dropped setup s₀ imgid s)
    (hconsistent : s₀.cache.Consistent) (hidle : s.cache.Idle setup.imageSize)
    (hnodup : (s.rows.map (·.id)).Nodup) (hover : s₀.Overflows setup imgid)
    (haccessed : Accessed setup s imgid row s₁) :
    imgid.toUInt32 ∉ ((s.othersOf imgid imgid).map Int32.toUInt32).foldl
      (use (keeps setup.cacheSetup setup.imageSize)) s₁.cache.keys := by
  obtain ⟨before, other, after, hothers, hnew, hfull⟩ := hover
  rw [othersOf, ← h.rows, ← othersOf] at hothers
  have hkeysNodup := haccessed.consistent.nodup_keys
  have hmissing : imgid.toUInt32 ∉ s.cache.keys := by
    rw [h.consistent.mem_keys, h.missing]
    exact fun ⟨ref, href⟩ => (by cases href)
  have hlength := h.length_keys_le hconsistent
  have hkey : ∀ o ∈ s.othersOf imgid imgid, o.toUInt32 ≠ imgid.toUInt32 :=
    fun o ho heq => (mem_othersOf ho).2 (toUInt32_injective heq)
  rw [(haccessed.used hidle).2, use_of_not_mem hmissing] at hkeysNodup ⊢
  have hmapped : ((s.othersOf imgid imgid).map Int32.toUInt32).Nodup :=
    (nodup_othersOf hnodup imgid).map toUInt32_injective
  have houtside : imgid.toUInt32 ∉ (s.othersOf imgid imgid).map Int32.toUInt32 := by
    intro hmem
    obtain ⟨o, ho, heq⟩ := mem_map.mp hmem
    exact hkey o ho heq
  rw [hothers, map_append] at hmapped houtside ⊢
  apply not_mem_uses_of_full hkeysNodup hmapped houtside
  · intro hmem
    rcases mem_append.mp hmem with hold | hlast
    · obtain ⟨ref, hfound⟩ := h.consistent.mem_keys.mp (mem_of_mem_drop hold)
      obtain ⟨ref₀, hfound₀⟩ := h.others _ ref hfound
      cases hnew.symm.trans hfound₀
    · apply hkey other (hothers ▸ mem_append_right _ mem_cons_self)
      exact mem_singleton.mp hlast
  · intro n hn hle
    rw [length_map] at hn hle ⊢
    rw [length_append, length_drop, length_singleton] at hle
    exact keeps_le_of_full hn fun m hm hmn => hfull m hm (by omega)

theorem gone_deleteRows (hmemory : s.NotInMemory imgid)
    (hcache : s.cache.hashtable imgid.toUInt32 = none) : (s.deleteRows imgid).Gone imgid where
  images _ hrow := of_decide_eq_true (mem_filter.mp hrow).2
  tables _ _ hrow := of_decide_eq_true (mem_filter.mp hrow).2
  memory := hmemory
  cache := hcache

theorem Removable.gone_of_overflows (h : Removable s imgid) (hquiet : s.Quiet setup)
    (hmemory : s.NotInMemory imgid) (hleads : s.Leads imgid) (hover : s.Overflows setup imgid)
    (t : ThreadId) (reset : ImageStore ρ → Option (ImageStore ρ × Bool)) :
    ∃ s', s.dtImageRemove setup t imgid reset = some s' ∧ s'.Gone imgid := by
  obtain ⟨s₁, hdropped, hremove⟩ := h.dtImageRemove_eq setup t reset
  obtain ⟨row, hrow, hid, hgroup⟩ := hleads
  have hnodup : (s₁.rows.map (·.id)).Nodup := hdropped.rows ▸ h.nodup
  have hidle := hdropped.idle hquiet.idle
  obtain ⟨s₂, haccessed, hrows, hgrouping⟩ :=
    hdropped.removeFromGroup_eq h.positive hnodup (hdropped.rows ▸ hrow) hid t
  have hstart : Regrouping setup s₁ s₂ :=
    ⟨(haccessed.used hidle).1, haccessed.holdsImages hid (hdropped.holdsImages hquiet.held),
      by rw [hrows], haccessed.tables, haccessed.memory⟩
  obtain ⟨s₃, group, hfold, hend, hkeys⟩ := Regrouping.foldlM hnodup
    (hdropped.rows ▸ hquiet.positive) t (s₁.othersOf imgid imgid) s₂ (-1) hstart
    fun other hother => (mem_othersOf hother).1
  rw [if_pos hgroup, hfold] at hgrouping
  rw [hremove, hgrouping]
  refine ⟨_, rfl, gone_deleteRows ?_ ?_⟩
  · show s₃.NotInMemory imgid
    rw [NotInMemory, hend.memory, hdropped.memory]
    exact hmemory
  · have hgone := hdropped.not_mem_keys h.consistent hidle hnodup hover haccessed
    rw [← hkeys, hend.idle.consistent.mem_keys] at hgone
    apply eq_none_iff_forall_ne_some.mpr
    exact fun ref href => hgone ⟨ref, href⟩

/-- Alone in its group, or led by another one, the image is always left in the cache. -/
theorem Removable.leads_of_gone (h : Removable s imgid)
    {reset : ImageStore ρ → Option (ImageStore ρ × Bool)}
    (hremove : s.dtImageRemove setup t imgid reset = some s') (hgone : s'.Gone imgid) :
    s.NotInMemory imgid ∧ s.Leads imgid ∧ s.othersOf imgid imgid ≠ [] := by
  obtain ⟨s₁, hdropped, heq⟩ := h.dtImageRemove_eq setup t reset
  obtain ⟨row, hrow, hid, -⟩ := h.row
  have hnodup : (s₁.rows.map (·.id)).Nodup := hdropped.rows ▸ h.nodup
  obtain ⟨s₂, haccessed, hrows, hgrouping⟩ :=
    hdropped.removeFromGroup_eq h.positive hnodup (hdropped.rows ▸ hrow) hid t
  obtain ⟨s₃, hgroup, rfl⟩ := map_eq_some_iff.mp (heq.symm.trans hremove)
  rw [hgrouping] at hgroup
  split at hgroup
  next hleads =>
    obtain ⟨state, hfold, rfl⟩ := map_eq_some_iff.mp hgroup
    refine ⟨?_, ⟨row, hrow, hid, hleads⟩, fun hnil => ?_⟩
    · have hmemory := foldlM_regroup_memory _ _ _ hfold
      rw [haccessed.memory, hdropped.memory] at hmemory
      rw [NotInMemory, ← hmemory]
      exact hgone.memory
    · rw [othersOf, ← hdropped.rows, ← othersOf] at hnil
      rw [hnil] at hfold
      cases hfold
      obtain ⟨ref, hvisited, -⟩ := haccessed.visited
      cases hvisited.found.symm.trans hgone.cache
  next hfollows =>
    have hloaded : (s₂.loaded imgid).id = imgid := haccessed.loaded_eq ▸ hid
    obtain ⟨s₄, hset, -, haccessed₄⟩ := exists_setGroup setup t h.positive haccessed.consistent
      haccessed.unlocked hloaded imgid
    cases hset.symm.trans hgroup
    obtain ⟨ref, hvisited, -⟩ := haccessed₄.visited
    cases hvisited.found.symm.trans hgone.cache

/-- Removing an image leaves nothing of it if it leads a group that does not fit into the cache, no
image is locked and no table in memory has it. It does not if the image is alone in its group or
follows another one. -/
theorem dtImageRemove_gone (h : Removable s imgid) (setup : ImageSetup) (t : ThreadId)
    (reset : ImageStore ρ → Option (ImageStore ρ × Bool)) :
    (s.Quiet setup → s.NotInMemory imgid → s.Leads imgid → s.Overflows setup imgid →
      ∃ s', s.dtImageRemove setup t imgid reset = some s' ∧ s'.Gone imgid) ∧
    ∀ s', s.dtImageRemove setup t imgid reset = some s' → s'.Gone imgid →
      s.NotInMemory imgid ∧ s.Leads imgid ∧ s.othersOf imgid imgid ≠ [] :=
  ⟨fun hquiet hmemory hleads hover => h.gone_of_overflows hquiet hmemory hleads hover t reset,
    fun _ => h.leads_of_gone⟩

end ImageStore

def imageStoreOf (rows : List CachedRow) : ImageStore Unit where
  cache := dtCacheInit
  images _ := ⟨-1, -1, false⟩
  rows := rows
  tables _ := []
  memory _ := []

def tightSetup : ImageSetup where
  cache := ⟨true, 1, id⟩
  imageSize := 1

variable {rows : List CachedRow}

theorem removable_imageStoreOf {imgid : Int32} (hpos : 0 < imgid) (hnodup : (rows.map (·.id)).Nodup)
    (hrow : ∃ row ∈ rows, row.id = imgid ∧ row.localCopy = false) :
    (imageStoreOf rows).Removable imgid where
  consistent := Consistent.init
  positive := hpos
  nodup := hnodup
  row := hrow
  unlocked _ hfound := by cases hfound
  cached _ hfound := by cases hfound

theorem quiet_imageStoreOf (hpos : ∀ row ∈ rows, 0 < row.id)
    (setup : ImageSetup) : (imageStoreOf rows).Quiet setup where
  idle := ⟨Consistent.init, fun _ href => absurd href not_mem_nil⟩
  held _ _ hfound := by cases hfound
  positive := hpos

theorem dtImageRemove_gone_pair :
    (imageStoreOf [⟨1, 1, false⟩, ⟨2, 1, false⟩]).Removable 1 ∧
      ∃ s', (imageStoreOf [⟨1, 1, false⟩, ⟨2, 1, false⟩]).dtImageRemove tightSetup 7 1
        (fun s => some (s, false)) = some s' ∧ s'.Gone 1 := by
  have h : (imageStoreOf [⟨1, 1, false⟩, ⟨2, 1, false⟩]).Removable 1 :=
    removable_imageStoreOf (by decide) (by decide) (by decide)
  refine ⟨h, (ImageStore.dtImageRemove_gone h tightSetup 7 _).1 ?_ ?_ ?_ ?_⟩
  · exact quiet_imageStoreOf (by decide) tightSetup
  · exact fun _ _ hrow => absurd hrow not_mem_nil
  · exact ⟨_, mem_cons_self, rfl, rfl⟩
  · refine ⟨[], 2, [], rfl, rfl, fun n hn hle => ?_⟩
    obtain rfl : n = 1 := Nat.le_antisymm hle hn
    decide +kernel

-- Alone in its group, the image is in the cache again when its row is gone.
theorem dtImageRemove_leaves_entry :
    (imageStoreOf [⟨1, 1, false⟩]).Removable 1 ∧
      ((imageStoreOf [⟨1, 1, false⟩]).dtImageRemove roomySetup 7 1 (fun s => some (s, false))).map
        (fun s => (s.rows, s.cache.hashtable 1)) = some ([], some 1) :=
  ⟨removable_imageStoreOf (by decide) (by decide) (by decide), by decide +kernel⟩

end DTLite
