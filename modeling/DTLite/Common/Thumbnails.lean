import DTLite.Common.MipmapCache
import DTLite.Common.MipmapFiles

/-!
# Thumbnails in memory and on disk

`dt_mipmap_cache_remove_at_size` takes a thumbnail out of memory and off the disk.  An entry that is
deleted writes its thumbnail to disk, unless it is marked as invalid, and a new entry reads what is
on disk, so what the removal leaves in one place comes back in the other.
-/

namespace DTLite

open Reasoning

/-- A picture in a JPEG file, told from others by how many were generated before; `none` is memory
that nobody has drawn on. -/
structure Thumbnail where
  width : UInt32
  height : UInt32
  picture : Option Nat
deriving DecidableEq, Repr

/-- `struct dt_mipmap_buffer_dsc` and the pixels behind it. -/
structure MipmapBuffer extends Thumbnail where
  generate : Bool
  invalidate : Bool
deriving DecidableEq, Repr

-- "don't write skulls".
def Thumbnail.isSkull (thumb : Thumbnail) : Bool := !(8 < thumb.width && 8 < thumb.height)

-- `cache->max_width` and `cache->max_height`, from `dt_mipmap_cache_init`.
def mipSizes : List (UInt32 × UInt32) :=
  [(180, 110), (360, 225), (720, 450), (1440, 900), (1920, 1200), (2560, 1600), (4096, 2560),
    (5120, 3200), (999999999, 999999999), (720, 450)]

/-- A call of `dt_mipmap_cache_remove_at_size`, with the number of pictures when it was made. -/
structure Removal where
  imgid : UInt32
  mip : MipmapSize
  since : Nat
deriving DecidableEq, Repr

def Removal.key (r : Removal) : UInt32 := getKey r.imgid r.mip

inductive RemovalState where
  | idle
  | testing (r : Removal)
  | invalidating (r : Removal) (ref : EntryRef)
  | removing (r : Removal)
  -- `dt_mipmap_cache_unlink_ondisk_thumbnail`
  | unlinking (r : Removal)
deriving DecidableEq, Repr

abbrev Files := Text → Option Thumbnail

/-- The thumbnails in memory and on disk, with the threads that remove them. -/
structure Thumbnails (n : Nat) where
  -- `cache->mip_thumbs`
  cache : Cache
  -- `entry->data`
  buffers : EntryRef → MipmapBuffer
  disk : DiskCache
  files : Files
  generated : Nat
  calls : Fin n → RemovalState
  removed : List Removal

/-! ## Files -/

def Files.unlink (files : Files) : Option Text → Files
  | some file => Function.update files file none
  | none => files

/-- `readable` says whether the file is a JPEG of a size that fits; one that is not is deleted. -/
def dtMipmapCacheAllocateDynamic (disk : DiskCache) (files : Files) (key : UInt32)
    (readable : Bool) : MipmapBuffer × Files :=
  let size := (mipSizes[(getSize key).toNat]?).getD (0, 0)
  let fresh : MipmapBuffer := ⟨⟨size.1, size.2, none⟩, true, false⟩
  match (disk.allocateReads key).bind files with
  | some thumb =>
      if readable then (⟨thumb, false, false⟩, files)
      else (fresh, files.unlink (disk.allocateReads key))
  | none => (fresh, files)

/-- `writes` says whether there is room and no error. -/
def dtMipmapCacheDeallocateDynamic (disk : DiskCache) (files : Files) (key : UInt32)
    (buf : MipmapBuffer) (writes : Bool) : Files :=
  if getSize key < dtMipmapF ∧ buf.isSkull = false then
    if buf.invalidate then files.unlink (disk.unlinks (getImgid key) (getSize key))
    else
      match disk.deallocateWrites key with
      | some file =>
          -- "don't write existing files"
          if (files file).isNone && writes then
            Function.update files file (some buf.toThumbnail)
          else files
      | none => files
  else files

namespace Thumbnails

variable {n : Nat}

-- The entries that a step of the cache deletes are deallocated, in the order of the list.
def deleted (c c' : Cache) : List EntryRef :=
  c.lru.filter fun ref => ((c.keyOf ref).bind c'.hashtable).isNone

variable (s : Thumbnails n)

def deallocate (writes : EntryRef → Bool) (files : Files) (ref : EntryRef) :
    Files :=
  match s.cache.keyOf ref with
  | some key => dtMipmapCacheDeallocateDynamic s.disk files key (s.buffers ref) (writes ref)
  | none => files

def withCache (cache : Cache) (writes : EntryRef → Bool) : Thumbnails n :=
  { s with
    cache := cache
    files := (deleted s.cache cache).foldl (s.deallocate writes) s.files }

/-- `dt_cache_get` of the thumbnails: a new entry is allocated. -/
def get (setup : CacheSetup) (s : Thumbnails n) (key : UInt32) (mode : LockMode) (t : ThreadId)
    (cost : UInt64) (readable : Bool) (writes : EntryRef → Bool) : Thumbnails n :=
  let got := dtCacheGet (mipmapSetup setup) s.cache key mode t cost
  let s' := s.withCache got.1 writes
  match s.cache.hashtable key, got.2 with
  | none, some ref =>
      let allocated := dtMipmapCacheAllocateDynamic s'.disk s'.files key readable
      { s' with
        buffers := Function.update s'.buffers ref allocated.1
        files := allocated.2 }
  | _, _ => s'

-- The picture of an entry that is to be generated, of 0 by 0 or 8 by 8 pixels if that fails.
def draw (ref : EntryRef) (width height : UInt32) : Thumbnails n :=
  let buf := s.buffers ref
  if buf.generate then
    { s with
      buffers := Function.update s.buffers ref
        ⟨⟨width, height, some s.generated⟩, false, buf.invalidate⟩
      generated := s.generated + 1 }
  else s

-- `dsc->flags |= DT_MIPMAP_BUFFER_DSC_FLAG_INVALIDATE`
def invalidate (s : Thumbnails n) (ref : EntryRef) : Thumbnails n :=
  { s with buffers := Function.update s.buffers ref { s.buffers ref with invalidate := true } }

variable (i : Fin n)

def setCall (call : RemovalState) : Thumbnails n :=
  { s with calls := Function.update s.calls i call }

def returns (r : Removal) : Thumbnails n :=
  { s.setCall i .idle with removed := r :: s.removed }

-- What a thread does that is not removing anything.
def outside (s' : Thumbnails n) : Thumbnails n :=
  if s.calls i = .idle then s' else s

/-- `dt_mipmap_cache_remove_at_size`, step by step; the other sizes are not thumbnails. -/
def startRemoval (imgid : UInt32) (mip : MipmapSize) :
    Thumbnails n :=
  if dtMipmap8 < mip then s
  else s.outside i (s.setCall i (.testing ⟨imgid, mip, s.generated⟩))

def advance (writes : EntryRef → Bool) : Thumbnails n :=
  match s.calls i with
  | .idle => s
  | .testing r =>
      let got := dtCacheTestget s.cache r.key .write i
      (s.withCache got.1 writes).setCall i (match got.2 with
        | some ref => .invalidating r ref
        | none => .unlinking r)
  | .invalidating r ref =>
      ((s.invalidate ref).withCache (dtCacheRelease s.cache ref i) writes).setCall i (.removing r)
  | .removing r =>
      let s' := s.withCache (dtCacheRemove s.cache r.key) writes
      if (s'.cache.hashtable r.key).isNone then s'.returns i r else s'
  | .unlinking r =>
      { s with files := s.files.unlink (s.disk.unlinks r.imgid r.mip) }.returns i r

end Thumbnails

inductive ThumbnailEvent (n : Nat) where
  | get (i : Fin n) (key : UInt32) (mode : LockMode) (cost : UInt64) (readable : Bool)
      (writes : EntryRef → Bool)
  | testget (i : Fin n) (key : UInt32) (mode : LockMode)
  | release (i : Fin n) (ref : EntryRef)
  | demoting (ref : EntryRef) (value : Bool)
  | draw (ref : EntryRef) (width height : UInt32)
  -- `dt_mipmap_cache_evict_at_size`
  | evict (key : UInt32) (writes : EntryRef → Bool)
  | gc (fillRatio : Rat) (writes : EntryRef → Bool)
  | settings (cacheDiskBackend cacheDiskBackendFull : Bool)
  | removeAtSize (i : Fin n) (imgid : UInt32) (mip : MipmapSize)
  | advance (i : Fin n) (writes : EntryRef → Bool)

def thumbnailStep {n : Nat} (setup : CacheSetup) (s : Thumbnails n) :
    ThumbnailEvent n → Thumbnails n
  | .get i key mode cost readable writes =>
      s.outside i (s.get setup key mode i cost readable writes)
  | .testget i key mode =>
      s.outside i (s.withCache (dtCacheTestget s.cache key mode i).1 fun _ => true)
  | .release i ref => s.outside i (s.withCache (dtCacheRelease s.cache ref i) fun _ => true)
  | .demoting ref value => s.withCache (setLockDemoting s.cache ref value) fun _ => true
  | .draw ref width height => s.draw ref width height
  | .evict key writes => s.withCache (dtCacheRemove s.cache key) writes
  | .gc fillRatio writes => s.withCache (dtCacheGc (mipmapSetup setup) s.cache fillRatio) writes
  | .settings backend full =>
      { s with disk := ⟨s.disk.cachedir, backend, full⟩ }
  | .removeAtSize i imgid mip => s.startRemoval i imgid mip
  | .advance i writes => s.advance i writes

/-! ## One thumbnail

What happens to the thumbnail of one image and size, in memory and on disk.
-/

structure ThumbnailView where
  memory : Option (EntryRef × MipmapBuffer)
  onDisk : Option Thumbnail

inductive ViewStep (generated : Nat) : ThumbnailView → ThumbnailView → Prop
  | refl (v) : ViewStep generated v v
  -- an entry is deleted: the file is left alone, deleted or written
  | leave {ref buf f} : buf.isSkull = true ∨ buf.invalidate = false →
      ViewStep generated ⟨some (ref, buf), f⟩ ⟨none, f⟩
  | drop {ref buf f} : ViewStep generated ⟨some (ref, buf), f⟩ ⟨none, none⟩
  | write {ref buf} : buf.invalidate = false →
      ViewStep generated ⟨some (ref, buf), none⟩ ⟨none, some buf.toThumbnail⟩
  | load {ref thumb} :
      ViewStep generated ⟨none, some thumb⟩ ⟨some (ref, ⟨thumb, false, false⟩), some thumb⟩
  | allocate {ref width height f f'} : f' = f ∨ f' = none →
      ViewStep generated ⟨none, f⟩ ⟨some (ref, ⟨⟨width, height, none⟩, true, false⟩), f'⟩
  | draw {ref buf f width height} : buf.generate = true →
      ViewStep generated ⟨some (ref, buf), f⟩
        ⟨some (ref, ⟨⟨width, height, some generated⟩, false, buf.invalidate⟩), f⟩
  | invalidate {ref buf f} :
      ViewStep generated ⟨some (ref, buf), f⟩ ⟨some (ref, { buf with invalidate := true }), f⟩
  | unlink {m f} : ViewStep generated ⟨m, f⟩ ⟨m, none⟩

-- The picture was drawn later, or is none.
def Thumbnail.IsNew (since : Nat) (thumb : Thumbnail) : Prop :=
  ∀ number ∈ thumb.picture, since ≤ number

namespace ThumbnailView

variable {v v' : ThumbnailView} {since generated : Nat}

def FileNew (since : Nat) (v : ThumbnailView) : Prop := ∀ thumb ∈ v.onDisk, thumb.IsNew since

def MemoryNew (since : Nat) (v : ThumbnailView) : Prop :=
  ∀ entry ∈ v.memory, entry.2.toThumbnail.IsNew since

-- The entry takes what is older with it when it goes.
def Sized (since : Nat) (v : ThumbnailView) (ref : EntryRef) : Prop :=
  ∃ buf, v.memory = some (ref, buf) ∧
    (buf.generate = false ∧ buf.isSkull = false ∨ v.FileNew since)

def Doomed (since : Nat) (v : ThumbnailView) : Prop :=
  ∃ ref buf, v.memory = some (ref, buf) ∧ buf.invalidate = true ∧
    (buf.generate = false ∧ buf.isSkull = false ∨ v.FileNew since)

def Clean (since : Nat) (v : ThumbnailView) : Prop := v.MemoryNew since ∧ v.FileNew since

theorem FileNew.of_none (h : v.onDisk = none) : v.FileNew since := by
  intro thumb hthumb
  rw [h] at hthumb
  cases hthumb

theorem MemoryNew.of_none (h : v.memory = none) : v.MemoryNew since := by
  intro entry hentry
  rw [h] at hentry
  cases hentry

theorem FileNew.step (h : v.FileNew since) (hstep : ViewStep generated v v')
    (hwrite : ∀ ref buf, v.memory = some (ref, buf) → buf.invalidate = false →
      buf.toThumbnail.IsNew since) : v'.FileNew since := by
  cases hstep with
  | refl | leave | load | draw | invalidate => exact h
  | drop | unlink => exact .of_none rfl
  | write hvalid =>
    rintro _ ⟨⟩
    exact hwrite _ _ rfl hvalid
  | allocate hf =>
    rcases hf with rfl | rfl
    · exact h
    · exact .of_none rfl

theorem MemoryNew.step (h : v.MemoryNew since) (hsince : since ≤ generated)
    (hstep : ViewStep generated v v')
    (hload : v.memory = none → v'.memory ≠ none → v.FileNew since) : v'.MemoryNew since := by
  cases hstep with
  | refl | unlink => exact h
  | leave | drop | write => exact .of_none rfl
  | load =>
    rintro _ ⟨⟩
    exact hload rfl (Option.some_ne_none _) _ rfl
  | allocate =>
    rintro _ ⟨⟩ number ⟨⟩
  | draw =>
    rintro _ ⟨⟩ number ⟨⟩
    exact hsince
  | @invalidate ref buf f =>
    rintro _ ⟨⟩
    exact h (ref, buf) rfl

theorem Clean.step (h : v.Clean since) (hsince : since ≤ generated)
    (hstep : ViewStep generated v v') : v'.Clean since :=
  ⟨h.1.step hsince hstep fun _ _ => h.2, h.2.step hstep fun _ _ hentry _ => h.1 _ hentry⟩

theorem Doomed.step (h : v.Doomed since) (hstep : ViewStep generated v v') :
    v'.Clean since ∨ v'.Doomed since := by
  obtain ⟨ref, buf, hmemory, hinvalid, hsized⟩ := h
  have hfile : v.FileNew since → v'.FileNew since := by
    intro hfile
    apply hfile.step hstep
    intro ref' buf' hmemory' hvalid
    cases hmemory.symm.trans hmemory'
    cases hinvalid.symm.trans hvalid
  cases hstep with
  | refl => exact .inr ⟨ref, buf, hmemory, hinvalid, hsized⟩
  | leave hleave =>
    cases hmemory
    refine .inl ⟨.of_none rfl, ?_⟩
    rcases hsized with ⟨-, hbig⟩ | hnew
    · rw [hbig, hinvalid] at hleave
      exact hleave.elim Bool.noConfusion Bool.noConfusion
    · exact hfile hnew
  | drop => exact .inl ⟨.of_none rfl, .of_none rfl⟩
  | write hvalid =>
    cases hmemory
    cases hinvalid.symm.trans hvalid
  | load | allocate => cases hmemory
  | draw hgenerate =>
    cases hmemory
    refine .inr ⟨ref, _, rfl, hinvalid, .inr ?_⟩
    rcases hsized with ⟨hdone, -⟩ | hnew
    · cases hdone.symm.trans hgenerate
    · exact hfile hnew
  | invalidate =>
    cases hmemory
    exact .inr ⟨ref, _, rfl, rfl, hsized⟩
  | unlink => exact .inr ⟨ref, buf, hmemory, hinvalid, .inr (.of_none rfl)⟩

theorem Sized.step {ref : EntryRef} (h : v.Sized since ref) (hstep : ViewStep generated v v')
    (hthere : v'.memory ≠ none) : v'.Sized since ref := by
  obtain ⟨buf, hmemory, hsized⟩ := h
  cases hstep with
  | refl => exact ⟨buf, hmemory, hsized⟩
  | leave | drop | write => exact absurd rfl hthere
  | load | allocate => cases hmemory
  | draw hgenerate =>
    cases hmemory
    refine ⟨_, rfl, .inr ?_⟩
    rcases hsized with ⟨hdone, -⟩ | hnew
    · cases hdone.symm.trans hgenerate
    · exact hnew
  | invalidate =>
    cases hmemory
    exact ⟨_, rfl, hsized⟩
  | unlink => exact ⟨buf, hmemory, .inr (.of_none rfl)⟩

end ThumbnailView

end DTLite
