import DTLite.Common.Thumbnails

/-!
# What a step does to one thumbnail

The steps of the cache and of the files, seen from one image and size.
-/

namespace DTLite

open Reasoning List Option Function DiskCache

def DiskCache.onDisk (disk : DiskCache) (files : Files) (key : UInt32) : Option Thumbnail :=
  if disk.cachedir.isEmpty then none else files (disk.fileOf key)

section Files

variable {disk : DiskCache} {files : Files} {key k : UInt32}

theorem onDisk_congr {files' : Files} (h : files' (disk.fileOf k) = files (disk.fileOf k)) :
    disk.onDisk files' k = disk.onDisk files k := by
  rw [onDisk, onDisk, h]

theorem onDisk_of_dir (hdir : disk.cachedir.isEmpty = false) :
    disk.onDisk files k = files (disk.fileOf k) := by
  rw [onDisk, hdir]
  rfl

theorem onDisk_update_ne (hne : k ≠ key) (thumb : Option Thumbnail) :
    disk.onDisk (update files (disk.fileOf key) thumb) k = disk.onDisk files k :=
  onDisk_congr (update_of_ne (fun h => hne (fileOf_inj h)) _ _)

theorem unlink_fileOf (disk : DiskCache) (files : Files) (key : UInt32) :
    disk.onDisk (files.unlink (disk.unlinks (getImgid key) (getSize key))) key = none ∧
      ∀ k ≠ key, disk.onDisk (files.unlink (disk.unlinks (getImgid key) (getSize key))) k =
        disk.onDisk files k := by
  rw [unlinks]
  by_cases hdir : disk.cachedir.isEmpty = true
  · rw [if_pos hdir]
    exact ⟨if_pos hdir, fun _ _ => rfl⟩
  · rw [if_neg hdir]
    refine ⟨?_, fun k hne => onDisk_update_ne hne none⟩
    rw [onDisk, if_neg hdir]
    exact update_self _ _ _

theorem onDisk_deallocate_ne (hne : k ≠ key) (buf : MipmapBuffer) (writes : Bool) :
    disk.onDisk (dtMipmapCacheDeallocateDynamic disk files key buf writes) k =
      disk.onDisk files k := by
  unfold dtMipmapCacheDeallocateDynamic
  split
  · split
    · exact (unlink_fileOf disk files key).2 k hne
    · split
      next file hfile =>
        obtain ⟨-, rfl⟩ := deallocateWrites_eq_some hfile
        split
        · exact onDisk_update_ne hne _
        · rfl
      next => rfl
  · rfl

theorem viewStep_deallocate (hkey : getSize key < dtMipmapF) (g : Nat) (ref : EntryRef)
    (buf : MipmapBuffer) (writes : Bool) :
    ViewStep g ⟨some (ref, buf), disk.onDisk files key⟩
      ⟨none, disk.onDisk (dtMipmapCacheDeallocateDynamic disk files key buf writes) key⟩ := by
  unfold dtMipmapCacheDeallocateDynamic
  split
  next hbig =>
    split
    · rw [(unlink_fileOf disk files key).1]
      exact .drop
    next hvalid =>
      rw [Bool.not_eq_true] at hvalid
      split
      next file hfile =>
        obtain ⟨hdir, rfl⟩ := deallocateWrites_eq_some hfile
        split
        next hwrites =>
          rw [Bool.and_eq_true, isNone_iff_eq_none] at hwrites
          rw [onDisk_of_dir hdir, onDisk_of_dir hdir, update_self, hwrites.1]
          exact .write hvalid
        next => exact .leave (.inr hvalid)
      next => exact .leave (.inr hvalid)
  next hskull =>
    rw [not_and, Bool.not_eq_false] at hskull
    exact .leave (.inl (hskull hkey))

theorem onDisk_allocate_ne (hne : k ≠ key) (readable : Bool) :
    disk.onDisk (dtMipmapCacheAllocateDynamic disk files key readable).2 k =
      disk.onDisk files k := by
  unfold dtMipmapCacheAllocateDynamic
  split
  · split
    · rfl
    · rw [allocateReads]
      split
      · exact onDisk_update_ne hne none
      · rfl
  · rfl

theorem viewStep_allocate (g : Nat) (ref : EntryRef) (readable : Bool) :
    ViewStep g ⟨none, disk.onDisk files key⟩
      ⟨some (ref, (dtMipmapCacheAllocateDynamic disk files key readable).1),
        disk.onDisk (dtMipmapCacheAllocateDynamic disk files key readable).2 key⟩ := by
  unfold dtMipmapCacheAllocateDynamic
  split
  next thumb hthumb =>
    obtain ⟨file, hfile, hthumb⟩ := bind_eq_some_iff.mp hthumb
    obtain ⟨hdir, rfl⟩ := allocateReads_eq_some hfile
    split
    · rw [onDisk_of_dir hdir, hthumb]
      exact .load
    · rw [hfile]
      apply ViewStep.allocate
      right
      rw [onDisk_of_dir hdir]
      exact update_self _ _ _
  next => exact .allocate (.inl rfl)

end Files

/-! ## Steps of the cache -/

namespace Cache

variable {c c' : Cache}

/-- No key finds another entry than before. -/
def Shrinks (c c' : Cache) : Prop :=
  ∀ key, c'.hashtable key = c.hashtable key ∨ c'.hashtable key = none

theorem Shrinks.refl (c : Cache) : Shrinks c c := fun _ => .inl rfl

theorem Shrinks.trans {c'' : Cache} (h : Shrinks c c') (h' : Shrinks c' c'') : Shrinks c c'' := by
  intro key
  rcases h' key with h' | h'
  · rw [h']
    exact h key
  · exact .inr h'

theorem shrinks_tryDelete {key : CacheEntry → UInt32} {ref : EntryRef}
    (h : c.tryDelete key ref = some c') : Shrinks c c' := by
  obtain ⟨entry, -, -, -, rfl⟩ := tryDelete_eq_some h
  intro k
  by_cases hk : k = key entry
  · rw [hk]
    exact .inr (update_self _ _ _)
  · exact .inl (update_of_ne hk _ _)

theorem shrinks_remove (c : Cache) (key : UInt32) : Shrinks c (dtCacheRemove c key) := by
  unfold dtCacheRemove
  rcases hdelete : (c.hashtable key).bind (c.tryDelete fun _ => key) with _ | c'
  · exact .refl c
  · obtain ⟨ref, -, hdelete⟩ := bind_eq_some_iff.mp hdelete
    exact shrinks_tryDelete hdelete

theorem Consistent.shrinks_gc (h : c.Consistent) (setup : CacheSetup) (fillRatio : Rat) :
    Shrinks c (dtCacheGc setup c fillRatio) :=
  (h.gc_keeps (Shrinks.refl c) (fun _ _ _ _ hshrinks htry ↦ hshrinks.trans (shrinks_tryDelete htry))
    setup fillRatio).2

theorem shrinks_testget (c : Cache) (key : UInt32) (mode : LockMode) (t : ThreadId) :
    Shrinks c (dtCacheTestget c key mode t).1 := by
  obtain ⟨ref, c', -, hlock, heq⟩ | heq := dtCacheTestget_cases c key mode t
  · rw [heq]
    obtain ⟨entry, lock, -, -, rfl⟩ := lockEntry_eq_some hlock
    exact .refl c
  · rw [heq]
    exact .refl c

theorem Consistent.shrinks_get_ne (h : c.Consistent) (setup : CacheSetup) (key : UInt32)
    (mode : LockMode) (t : ThreadId) (cost : UInt64) {k : UInt32} (hne : k ≠ key) :
    (dtCacheGet setup c key mode t cost).1.hashtable k = c.hashtable k ∨
      (dtCacheGet setup c key mode t cost).1.hashtable k = none := by
  unfold dtCacheGet
  split
  · exact shrinks_testget c key mode t k
  · dsimp only [Cache.insert]
    rw [update_of_ne hne]
    split
    · exact h.shrinks_gc setup (4 / 5) k
    · exact .inl rfl

theorem dtCacheGet_new (setup : CacheSetup) {key : UInt32} (hnone : c.hashtable key = none)
    (mode : LockMode) (t : ThreadId) (cost : UInt64) :
    ∃ ref, (dtCacheGet setup c key mode t cost).2 = some ref ∧
      (dtCacheGet setup c key mode t cost).1.hashtable key = some ref := by
  unfold dtCacheGet
  rw [hnone]
  exact ⟨_, rfl, update_self _ _ _⟩

end Cache

namespace Thumbnails

variable {n : Nat} {s : Thumbnails n} {k : UInt32}

def view (s : Thumbnails n) (k : UInt32) : ThumbnailView where
  memory := (s.cache.hashtable k).map fun ref => (ref, s.buffers ref)
  onDisk := s.disk.onDisk s.files k

theorem onDisk_foldl_deallocate (writes : EntryRef → Bool) {l : List EntryRef}
    (hne : ∀ ref ∈ l, s.cache.keyOf ref ≠ some k) (files : Files) :
    s.disk.onDisk (l.foldl (s.deallocate writes) files) k = s.disk.onDisk files k := by
  induction l generalizing files with
  | nil => rfl
  | cons ref l ih =>
    rw [foldl_cons, ih fun ref' href' => hne ref' (mem_cons_of_mem _ href')]
    have hkey := hne ref mem_cons_self
    rw [deallocate]
    split
    next key hsome =>
      rw [hsome] at hkey
      exact onDisk_deallocate_ne (fun h => hkey (congrArg some h.symm)) _ _
    next => rfl

theorem viewStep_foldl_deallocate (hk : getSize k < dtMipmapF) (writes : EntryRef → Bool)
    {l : List EntryRef} (hnodup : l.Nodup) {ref : EntryRef} (hmem : ref ∈ l)
    (hkey : s.cache.keyOf ref = some k)
    (hone : ∀ ref' ∈ l, s.cache.keyOf ref' = some k → ref' = ref) (files : Files) :
    ViewStep s.generated ⟨some (ref, s.buffers ref), s.disk.onDisk files k⟩
      ⟨none, s.disk.onDisk (l.foldl (s.deallocate writes) files) k⟩ := by
  obtain ⟨l₁, l₂, rfl⟩ := append_of_mem hmem
  have hcons := nodup_append.mp hnodup
  rw [foldl_append, foldl_cons]
  -- the entries after it and before it have other keys
  rw [onDisk_foldl_deallocate writes (l := l₂)]
  · rw [← onDisk_foldl_deallocate writes (l := l₁) _ files]
    · rw [deallocate, hkey]
      exact viewStep_deallocate hk _ ref _ _
    · intro ref' href' hkey'
      rw [hone ref' (mem_append_left _ href') hkey'] at href'
      exact hcons.2.2 _ href' _ mem_cons_self rfl
  · intro ref' href' hkey'
    rw [hone ref' (mem_append_right _ (mem_cons_of_mem _ href')) hkey'] at href'
    exact (nodup_cons.mp hcons.2.1).1 href'

section

variable (h : s.cache.Consistent)
include h

theorem view_withCache {c' : Cache}
    (hsame : c'.hashtable k = s.cache.hashtable k) (writes : EntryRef → Bool) :
    (s.withCache c' writes).view k = s.view k := by
  unfold view withCache
  dsimp only
  rw [hsame, onDisk_foldl_deallocate writes]
  intro ref href hkey
  obtain ⟨hmem, hnone⟩ := mem_filter.mp href
  rw [hkey, bind_some, hsame, (h.lookup k ref).mpr ⟨hmem, hkey⟩] at hnone
  cases hnone

theorem viewStep_withCache (hk : getSize k < dtMipmapF) {c' : Cache}
    (hshrinks : c'.hashtable k = s.cache.hashtable k ∨ c'.hashtable k = none)
    (writes : EntryRef → Bool) :
    ViewStep s.generated (s.view k) ((s.withCache c' writes).view k) := by
  by_cases hsame : c'.hashtable k = s.cache.hashtable k
  · rw [view_withCache h hsame]
    exact .refl _
  · have hnone := hshrinks.resolve_left hsame
    obtain ⟨ref, href⟩ := ne_none_iff_exists'.mp fun hfound => hsame (hnone.trans hfound.symm)
    obtain ⟨hmem, hkey⟩ := (h.lookup k ref).mp href
    have hdeleted : ref ∈ deleted s.cache c' := by
      apply mem_filter.mpr
      refine ⟨hmem, ?_⟩
      rw [hkey]
      exact isNone_iff_eq_none.mpr hnone
    have hone : ∀ ref' ∈ deleted s.cache c', s.cache.keyOf ref' = some k → ref' = ref := by
      intro ref' href' hkey'
      have hfound := (h.lookup k ref').mpr ⟨(mem_filter.mp href').1, hkey'⟩
      exact some.inj (hfound.symm.trans href)
    have hstep := viewStep_foldl_deallocate hk writes (h.nodup.filter _) hdeleted hkey hone s.files
    rw [view, href]
    show ViewStep _ _ ⟨(c'.hashtable k).map _, _⟩
    rw [hnone]
    exact hstep

theorem viewStep_get (hk : getSize k < dtMipmapF) (setup : CacheSetup)
    (key : UInt32) (mode : LockMode) (t : ThreadId) (cost : UInt64) (readable : Bool)
    (writes : EntryRef → Bool) : ViewStep s.generated (s.view k)
      ((s.get setup key mode t cost readable writes).view k) := by
  unfold get
  rcases hkey : s.cache.hashtable key with _ | found
  · obtain ⟨ref, hget, hfind⟩ := Cache.dtCacheGet_new (mipmapSetup setup) hkey mode t cost
    simp only [hget]
    have hc := h.get (mipmapSetup setup) key mode t cost
    by_cases hne : k = key
    · subst hne
      have hfile : s.disk.onDisk
          (s.withCache (dtCacheGet (mipmapSetup setup) s.cache k mode t cost).1 writes).files k =
            s.disk.onDisk s.files k := by
        apply onDisk_foldl_deallocate
        intro ref' href' hkey'
        cases hkey.symm.trans ((h.lookup k ref').mpr ⟨(mem_filter.mp href').1, hkey'⟩)
      rw [view, view, hkey]
      dsimp only [withCache]
      rw [hfind, map_some, update_self, ← hfile]
      exact viewStep_allocate _ ref readable
    · have hview := viewStep_withCache h hk
        (h.shrinks_get_ne (mipmapSetup setup) key mode t cost hne)
        writes
      -- no other key finds the new entry
      have hother : ∀ ref' ∈ (dtCacheGet (mipmapSetup setup) s.cache key mode t cost).1.hashtable k,
          ref' ≠ ref := by
        rintro ref' href' rfl
        have hkeys := ((hc.lookup k ref').mp href').2.symm.trans ((hc.lookup key ref').mp hfind).2
        exact hne (some.inj hkeys)
      convert hview using 1
      unfold view withCache
      dsimp only
      rw [onDisk_allocate_ne hne]
      congr 1
      apply Option.map_congr
      intro ref' href'
      rw [update_of_ne (hother ref' href')]
  · have htest : dtCacheGet (mipmapSetup setup) s.cache key mode t cost =
        dtCacheTestget s.cache key mode t := by rw [dtCacheGet, hkey]
    rw [htest]
    exact viewStep_withCache h hk (Cache.shrinks_testget s.cache key mode t k) writes

end

theorem view_updateBuffer {ref : EntryRef} (hne : s.cache.hashtable k ≠ some ref)
    (buf : MipmapBuffer) :
    { s with buffers := update s.buffers ref buf }.view k = s.view k := by
  unfold view
  congr 1
  apply Option.map_congr
  intro ref' href'
  dsimp only
  rw [update_of_ne fun heq => hne (by rw [← heq]; exact href')]

theorem viewStep_draw (ref : EntryRef) (width height : UInt32) :
    ViewStep s.generated (s.view k) ((s.draw ref width height).view k) := by
  unfold draw
  dsimp only
  split
  next hgenerate =>
    by_cases href : s.cache.hashtable k = some ref
    · rw [view, view, href]
      dsimp only [map_some]
      rw [update_self]
      exact .draw hgenerate
    · have hview := view_updateBuffer href ⟨⟨width, height, some s.generated⟩, false,
        (s.buffers ref).invalidate⟩
      rw [← hview]
      exact .refl _
  next => exact .refl _

theorem viewStep_invalidate (ref : EntryRef) :
    ViewStep s.generated (s.view k) ((s.invalidate ref).view k) := by
  by_cases href : s.cache.hashtable k = some ref
  · rw [view, view, invalidate, href]
    dsimp only [map_some]
    rw [update_self]
    exact .invalidate
  · rw [invalidate, view_updateBuffer href]
    exact .refl _

end Thumbnails

end DTLite
