import DTLite.Common.Cache

/-!
# The image cache

The cache of the rows of `main.images`: a get takes the lock of an image, a release gives it back
and writes the image through to the database.
-/

namespace DTLite

open Reasoning Function

structure Timestamps where
  importTimestamp : Int
  changeTimestamp : Int
  exportTimestamp : Int
  printTimestamp : Int
deriving DecidableEq, Repr

/-- `dt_image_t`. -/
structure CachedImage where
  id : Int32
  timestamps : Timestamps
deriving DecidableEq, Repr

def dtImageInit : CachedImage := ⟨-1, ⟨-1, -1, -1, -1⟩⟩

/-- `dt_image_cache_t`, with the database behind it. -/
structure ImageCache where
  cache : Cache
  -- `entry->data`
  images : EntryRef → CachedImage
  rows : Int32 → Option Timestamps

-- The cost of an entry is `sizeof(dt_image_t)`.
structure ImageSetup where
  cache : CacheSetup
  imageSize : UInt64

variable (setup : ImageSetup)

def ImageSetup.cacheSetup : CacheSetup :=
  { setup.cache with allocates := true }

/-- "load stuff from db and store in cache". -/
def dtImageCacheAllocate (rows : Int32 → Option Timestamps) (key : UInt32) : CachedImage :=
  match rows key.toInt32 with
  | some timestamps => ⟨key.toInt32, timestamps⟩
  | none => { dtImageInit with id := -1 }

variable (c : ImageCache)

/-- `dt_cache_get` of the image cache: a new entry has the row of its image. -/
def ImageCache.get (key : UInt32) (mode : LockMode) (t : ThreadId) : ImageCache × Option EntryRef :=
  let got := dtCacheGet setup.cacheSetup c.cache key mode t setup.imageSize
  let images := match c.cache.hashtable key, got.2 with
    | none, some ref => update c.images ref (dtImageCacheAllocate c.rows key)
    | _, _ => c.images
  ({ c with cache := got.1, images := images }, got.2)

/-- `none` for `NULL` and while it waits for the lock. -/
def dtImageCacheGet (imgid : Int32) (mode : LockMode) (t : ThreadId) :
    ImageCache × Option EntryRef :=
  if imgid ≤ 0 then (c, none) else c.get setup imgid.toUInt32 mode t

def dtImageCacheTestget (imgid : Int32) (mode : LockMode) (t : ThreadId) :
    ImageCache × Option EntryRef :=
  if imgid ≤ 0 then (c, none)
  else
    let got := dtCacheTestget c.cache imgid.toUInt32 mode t
    ({ c with cache := got.1 }, got.2)

def ImageCache.release (ref : EntryRef) (t : ThreadId) : ImageCache :=
  { c with cache := dtCacheRelease c.cache ref t }

def dtImageCacheReadRelease (ref : EntryRef) (t : ThreadId) : ImageCache :=
  if (c.images ref).id ≤ 0 then c else c.release ref t

/-- "this triggers a write-through to sql". -/
def dtImageCacheWriteRelease (ref : EntryRef) (t : ThreadId) : ImageCache :=
  let img := c.images ref
  if img.id ≤ 0 then c
  else
    let rows := update c.rows img.id ((c.rows img.id).map fun _ => img.timestamps)
    { c with rows := rows }.release ref t

def LockMode.imageRelease : LockMode → ImageCache → EntryRef → ThreadId → ImageCache
  | .read => dtImageCacheReadRelease
  | .write => dtImageCacheWriteRelease

/-! ## A get and its release -/

namespace ImageCache

variable {c c' : ImageCache} {setup : ImageSetup}

-- The lock of an image; an image that is not in the cache is not locked.
def lockOf (c : ImageCache) (imgid : Int32) : RwLock ThreadId :=
  (((c.cache.hashtable imgid.toUInt32).bind c.cache.entries).map CacheEntry.lock).getD (.shared [])

variable {imgid : Int32} {t : ThreadId} {ref : EntryRef} {entry : CacheEntry}

theorem lockOf_of_entry (hfound : c.cache.hashtable imgid.toUInt32 = some ref)
    (hentry : c.cache.entries ref = some entry) : c.lockOf imgid = entry.lock := by
  simp [lockOf, hfound, hentry]

-- The image that a get finds, in the cache or in the database, is there.
def Loads (c : ImageCache) (imgid : Int32) : Prop :=
  match c.cache.hashtable imgid.toUInt32 with
  | some ref => 0 < (c.images ref).id
  | none => (c.rows imgid).isSome

theorem imageRelease_of_pos (hid : 0 < (c.images ref).id) (mode : LockMode) (t : ThreadId) :
    (mode.imageRelease c ref t).cache = dtCacheRelease c.cache ref t := by
  cases mode with
  | read => simp [LockMode.imageRelease, dtImageCacheReadRelease, release, Int32.not_le.mpr hid]
  | write => simp [LockMode.imageRelease, dtImageCacheWriteRelease, release, Int32.not_le.mpr hid]

theorem imageRelease_of_nonpos (hid : (c.images ref).id ≤ 0) (mode : LockMode) (t : ThreadId) :
    mode.imageRelease c ref t = c := by
  cases mode with
  | read => simp [LockMode.imageRelease, dtImageCacheReadRelease, hid]
  | write => simp [LockMode.imageRelease, dtImageCacheWriteRelease, hid]

theorem unlock_tryLock {mode : LockMode} {l l' : RwLock ThreadId}
    (hlock : mode.tryLock l t = some l') : l'.unlock t = l ∧ l' ≠ l := by
  cases mode with
  | read => exact RwLock.unlock_tryRdlock hlock
  | write => exact RwLock.unlock_tryWrlock hlock

theorem dtImageCacheAllocate_id_pos (rows : Int32 → Option Timestamps) (hpos : 0 < imgid) :
    0 < (dtImageCacheAllocate rows imgid.toUInt32).id ↔ (rows imgid).isSome := by
  rw [dtImageCacheAllocate, show imgid.toUInt32.toInt32 = imgid from rfl]
  cases rows imgid with
  | none => exact iff_of_false (show ¬ (0 : Int32) < -1 by decide) Bool.noConfusion
  | some timestamps => exact iff_of_true hpos rfl

theorem dtImageCacheGet_locks (h : c.cache.Consistent) (hpos : 0 < imgid) {mode : LockMode}
    (hget : dtImageCacheGet setup c imgid mode t = (c', some ref)) :
    (∃ entry, c'.cache.hashtable imgid.toUInt32 = some ref ∧ c'.cache.entries ref = some entry ∧
      entry.lock.unlock t = c.lockOf imgid ∧ entry.lock ≠ c.lockOf imgid) ∧
    (0 < (c'.images ref).id ↔ c.Loads imgid) := by
  rw [dtImageCacheGet, if_neg (Int32.not_le.mpr hpos), ImageCache.get] at hget
  obtain ⟨found, cache', hfound, hlock, heq⟩ | heq | ⟨hnone, c₁, cost, -, -, -, heq⟩ :=
    h.get_cases setup.cacheSetup imgid.toUInt32 mode t setup.imageSize
  · simp only [heq] at hget
    cases hget
    obtain ⟨entry, lock, hentry, htry, rfl⟩ := Cache.lockEntry_eq_some hlock
    rw [lockOf_of_entry hfound hentry]
    exact ⟨⟨{ entry with lock }, hfound, update_self _ _ _, unlock_tryLock htry⟩,
      by simp [Loads, hfound]⟩
  · simp only [heq] at hget
    cases hget
  · simp only [heq, hnone] at hget
    cases hget
    have hbefore : c.lockOf imgid = .shared [] := by simp [lockOf, hnone]
    have hlock : (if mode = .write ∨ setup.cacheSetup.allocates then RwLock.written t
        else .shared [t]) = .written t := if_pos (.inr rfl)
    rw [hbefore]
    refine ⟨⟨_, update_self _ _ _, update_self _ _ _, ?_⟩, ?_⟩
    · rw [hlock]
      exact RwLock.unlock_tryWrlock rfl
    · show 0 < (update c.images c₁.next _ c₁.next).id ↔ _
      rw [update_self, Loads, hnone]
      exact dtImageCacheAllocate_id_pos c.rows hpos

theorem lockOf_release (hfound : c.cache.hashtable imgid.toUInt32 = some ref)
    (hentry : c.cache.entries ref = some entry) (hcache : c'.cache = dtCacheRelease c.cache ref t) :
    c'.lockOf imgid = entry.lock.unlock t := by
  have hfound' : c'.cache.hashtable imgid.toUInt32 = some ref := by rw [hcache]; exact hfound
  have hentry' : c'.cache.entries ref = some { entry with lock := entry.lock.unlock t } := by
    rw [hcache, dtCacheRelease, hentry]
    exact update_self _ _ _
  exact lockOf_of_entry hfound' hentry'

/-- A release gives back the lock that its get took exactly if the image was found, in the cache or
in the database. -/
theorem imageRelease_unlocks_iff (h : c.cache.Consistent) {imgid : Int32} (hpos : 0 < imgid)
    {mode : LockMode} {t : ThreadId} {ref : EntryRef}
    (hget : dtImageCacheGet setup c imgid mode t = (c', some ref)) :
    (mode.imageRelease c' ref t).lockOf imgid = c.lockOf imgid ↔ c.Loads imgid := by
  obtain ⟨⟨entry, hfound, hentry, hunlock, hlocked⟩, hid⟩ := dtImageCacheGet_locks h hpos hget
  rw [← hid]
  constructor
  · intro hreleased
    by_contra hnonpos
    rw [imageRelease_of_nonpos (Int32.not_lt.mp hnonpos)] at hreleased
    exact hlocked ((lockOf_of_entry hfound hentry).symm.trans hreleased)
  · intro hid
    rw [lockOf_release hfound hentry (imageRelease_of_pos hid mode t), hunlock]

end ImageCache

def oneImage : ImageCache where
  cache := dtCacheInit
  images _ := dtImageInit
  rows imgid := if imgid = 1 then some ⟨0, 0, 0, 0⟩ else none

def roomySetup : ImageSetup where
  cache := ⟨true, 1000000, id⟩
  imageSize := 1

theorem oneImage_unlocks :
    (LockMode.read.imageRelease (dtImageCacheGet roomySetup oneImage 1 .read 7).1 0 7).lockOf 1 =
      oneImage.lockOf 1 :=
  have hget : (dtImageCacheGet roomySetup oneImage 1 .read 7).2 = some 0 := by decide +kernel
  (ImageCache.imageRelease_unlocks_iff Cache.Consistent.init (by decide)
    (Prod.ext rfl hget)).mpr rfl

-- The second image is not in the library: its entry stays locked for writing, for good.
theorem oneImage_missing_stays_locked :
    (LockMode.read.imageRelease (dtImageCacheGet roomySetup oneImage 2 .read 7).1 0 7).lockOf 2 =
      .written 7 := by
  decide +kernel

end DTLite
