import DTLite.Common.HistoryTable
import DTLite.Reasoning.Text
import Mathlib.Data.List.ReduceOption
import Mathlib.Data.UInt

/-!
# Thumbnails on disk

A thumbnail that leaves the mipmap cache is kept in a JPEG file, from which it is read again.  The
name of that file is built in six places.
-/

namespace DTLite

open Reasoning

/-- `dt_mipmap_size_t`; the thumbnails are `DT_MIPMAP_0` to `DT_MIPMAP_8`. -/
abbrev MipmapSize := UInt32

def dtMipmap8 : MipmapSize := 8
def dtMipmapF : MipmapSize := 9
def dtMipmapFull : MipmapSize := 10

/-- "imgid can't be >= 2^28 (~250 million images)". -/
def getKey (imgid : UInt32) (size : MipmapSize) : UInt32 := size <<< 28 ||| (imgid - 1)

def getImgid (key : UInt32) : UInt32 := (key &&& 0xfffffff) + 1

def getSize (key : UInt32) : MipmapSize := key >>> 28

/-- Where the thumbnails are, and the settings that say which of them. -/
structure DiskCache where
  -- empty if the library is in memory
  cachedir : Text
  cacheDiskBackend : Bool
  cacheDiskBackendFull : Bool
deriving DecidableEq, Repr

-- "%s.d/%d/%u.jpg".
def thumbnailFile (cachedir : Text) (mip number : UInt32) : Text :=
  (cachedir ++ ".d/".toList ++ Nat.toDigits 10 mip.toNat) ++
    '/' :: (Nat.toDigits 10 number.toNat ++ ".jpg".toList)

namespace DiskCache

variable (disk : DiskCache)

-- Thumbnails of this size are written and read.
def backs (mip : MipmapSize) : Bool :=
  decide (mip < dtMipmapF) && (!disk.cachedir.isEmpty &&
    (disk.cacheDiskBackend && decide (mip < dtMipmap8) ||
      disk.cacheDiskBackendFull && decide (mip = dtMipmap8)))

def fileOf (key : UInt32) : Text := thumbnailFile disk.cachedir (getSize key) (getImgid key)

/-- The file that `dt_mipmap_cache_allocate_dynamic` reads. -/
def allocateReads (key : UInt32) : Option Text :=
  if disk.backs (getSize key) then some (disk.fileOf key) else none

/-- The file that `dt_mipmap_cache_deallocate_dynamic` writes. -/
def deallocateWrites (key : UInt32) : Option Text :=
  if disk.backs (getSize key) then some (disk.fileOf key) else none

variable (imgid : UInt32)

/-- The file that `dt_mipmap_cache_unlink_ondisk_thumbnail` deletes. -/
def unlinks (mip : MipmapSize) : Option Text :=
  if disk.cachedir.isEmpty then none else some (thumbnailFile disk.cachedir mip imgid)

/-- The file that `dt_mipmap_cache_get` looks for with `DT_MIPMAP_PREFETCH_DISK`. -/
def prefetchDiskTests (mip : MipmapSize) : Option Text :=
  if disk.cachedir.isEmpty then none
  else if dtMipmapFull < mip then none
  else some (thumbnailFile disk.cachedir mip (getKey imgid mip))

/-- And with `DT_MIPMAP_BEST_EFFORT`, where no thumbnail of the image is in memory. -/
def bestEffortTests (mip : MipmapSize) : Option Text :=
  if disk.cachedir.isEmpty then none
  else some (thumbnailFile disk.cachedir mip (getKey imgid mip))

/-- The file that `dt_mipmap_cache_copy_thumbnails` copies. -/
def copyReads (srcImgid : UInt32) (mip : MipmapSize) : Option Text :=
  if !disk.cachedir.isEmpty && disk.cacheDiskBackend && decide (mip < dtMipmapF) then
    some (thumbnailFile disk.cachedir mip srcImgid)
  else none

-- An entry that is invalidated is deallocated; without one the file itself is deleted.
def touched (mip : MipmapSize) : List Text :=
  let key := getKey imgid mip
  [disk.allocateReads key, disk.prefetchDiskTests imgid mip, disk.bestEffortTests imgid mip,
    disk.unlinks (getImgid key) (getSize key), disk.unlinks imgid mip,
    disk.copyReads imgid mip].reduceOption

def SameFile (mip : MipmapSize) : Prop :=
  ∀ written, disk.deallocateWrites (getKey imgid mip) = some written →
    ∀ file ∈ disk.touched imgid mip, file = written

end DiskCache

/-! ## Keys and files -/

variable (key : UInt32)

theorem toNat_getImgid : (getImgid key).toNat = key.toNat % 268435456 + 1 := by
  have hmask : (key &&& 0xfffffff).toNat = key.toNat % 268435456 := by
    exact Nat.and_two_pow_sub_one_eq_mod key.toNat 28
  rw [getImgid, UInt32.toNat_add, hmask]
  exact Nat.mod_eq_of_lt (show key.toNat % 268435456 + 1 < 2 ^ 32 by omega)

theorem toNat_getSize : (getSize key).toNat = key.toNat / 268435456 := by
  rw [getSize, UInt32.toNat_shiftRight, Nat.shiftRight_eq_div_pow]
  rfl

variable {imgid : UInt32} {mip : MipmapSize}

theorem toNat_getKey (hpos : 0 < imgid) (himgid : imgid ≤ 0x10000000) (hmip : mip ≤ dtMipmap8) :
    (getKey imgid mip).toNat = mip.toNat * 268435456 + (imgid.toNat - 1) := by
  have hpos' : 0 < imgid.toNat := UInt32.lt_iff_toNat_lt.mp hpos
  have himgid' : imgid.toNat ≤ 268435456 := UInt32.le_iff_toNat_le.mp himgid
  have hmip' : mip.toNat ≤ 8 := UInt32.le_iff_toNat_le.mp hmip
  have hpred : (imgid - 1).toNat = imgid.toNat - 1 :=
    UInt32.toNat_sub_of_le imgid 1 (UInt32.le_iff_toNat_le.mpr hpos')
  have hshift : (mip <<< 28).toNat = mip.toNat <<< 28 := by
    have h28 : (28 : UInt32).toNat % 32 = 28 := rfl
    rw [UInt32.toNat_shiftLeft, h28, Nat.mod_eq_of_lt (by omega)]
  rw [getKey, UInt32.toNat_or, hshift, hpred,
    ← Nat.shiftLeft_add_eq_or_of_lt (show imgid.toNat - 1 < 2 ^ 28 by omega), Nat.shiftLeft_eq]

theorem getSize_getKey (hpos : 0 < imgid)
    (himgid : imgid ≤ 0x10000000) (hmip : mip ≤ dtMipmap8) : getSize (getKey imgid mip) = mip := by
  have himgid' : imgid.toNat ≤ 268435456 := UInt32.le_iff_toNat_le.mp himgid
  apply UInt32.toNat_inj.mp
  rw [toNat_getSize, toNat_getKey hpos himgid hmip]
  omega

theorem getImgid_getKey (hpos : 0 < imgid) (himgid : imgid ≤ 0x10000000) (hmip : mip ≤ dtMipmap8) :
    getImgid (getKey imgid mip) = imgid := by
  have hpos' : 0 < imgid.toNat := UInt32.lt_iff_toNat_lt.mp hpos
  have himgid' : imgid.toNat ≤ 268435456 := UInt32.le_iff_toNat_le.mp himgid
  apply UInt32.toNat_inj.mp
  rw [toNat_getImgid, toNat_getKey hpos himgid hmip]
  omega

theorem getImgid_ne : getImgid key ≠ key := by
  intro h
  have hkey := congrArg UInt32.toNat h
  rw [toNat_getImgid] at hkey
  omega

theorem thumbnailFile_inj {cachedir : Text} {mip mip' number number' : UInt32}
    (h : thumbnailFile cachedir mip number = thumbnailFile cachedir mip' number') :
    mip = mip' ∧ number = number' := by
  have hslash : ∀ n : UInt32, '/' ∉ Nat.toDigits 10 n.toNat ++ ".jpg".toList := by
    intro n hmem
    rcases List.mem_append.mp hmem with hmem | hmem
    · exact absurd (Nat.isDigit_of_mem_toDigits (by decide) (by decide) hmem) (by decide)
    · exact absurd hmem (by decide)
  have hdigits : ∀ m n : UInt32, Nat.toDigits 10 m.toNat = Nat.toDigits 10 n.toNat → m = n := by
    intro m n hmn
    have hread := congrArg (Nat.ofDigitChars 10 · 0) hmn
    simp only [Nat.ofDigitChars_toDigits (by decide : 1 < 10) (by decide)] at hread
    exact UInt32.toNat_inj.mp hread
  obtain ⟨hdir, hname⟩ := append_cons_inj (hslash number) (hslash number') h
  exact ⟨hdigits _ _ (List.append_cancel_left hdir), hdigits _ _ (List.append_cancel_right hname)⟩

namespace DiskCache

variable {disk : DiskCache}

theorem fileOf_inj {key key' : UInt32} (h : disk.fileOf key = disk.fileOf key') : key = key' := by
  obtain ⟨hsize, himgid⟩ := thumbnailFile_inj h
  have hsize := congrArg UInt32.toNat hsize
  have himgid := congrArg UInt32.toNat himgid
  rw [toNat_getSize, toNat_getSize] at hsize
  rw [toNat_getImgid, toNat_getImgid] at himgid
  apply UInt32.toNat_inj.mp
  omega

theorem cachedir_of_backs {mip : MipmapSize} (h : disk.backs mip = true) :
    disk.cachedir.isEmpty = false := by
  simp only [backs, Bool.and_eq_true, Bool.not_eq_true'] at h
  exact h.2.1

theorem allocateReads_eq_some {key : UInt32} {file : Text}
    (h : disk.allocateReads key = some file) :
    disk.cachedir.isEmpty = false ∧ disk.fileOf key = file := by
  obtain ⟨hbacks, hfile⟩ := Option.ite_none_right_eq_some.mp h
  exact ⟨cachedir_of_backs hbacks, Option.some.inj hfile⟩

theorem deallocateWrites_eq_some {key : UInt32} {file : Text}
    (h : disk.deallocateWrites key = some file) :
    disk.cachedir.isEmpty = false ∧ disk.fileOf key = file := allocateReads_eq_some h

end DiskCache

/-- The places agree on the file exactly if none is written: the lookups put the key where the
others put the image. -/
theorem DiskCache.sameFile_iff (disk : DiskCache) (imgid : UInt32) (mip : MipmapSize) :
    disk.SameFile imgid mip ↔ disk.backs (getSize (getKey imgid mip)) = false := by
  constructor
  · intro hsame
    by_contra hbacks
    rw [Bool.not_eq_false] at hbacks
    have hdir := cachedir_of_backs hbacks
    have htests : thumbnailFile disk.cachedir mip (getKey imgid mip) ∈ disk.touched imgid mip := by
      rw [touched, List.reduceOption_mem_iff]
      simp [bestEffortTests, hdir]
    have hfile := hsame _ (if_pos hbacks) _ htests
    exact getImgid_ne _ (thumbnailFile_inj hfile).2.symm
  · intro hbacks written hwritten
    rw [deallocateWrites, hbacks] at hwritten
    cases hwritten

-- The first image of a library: its smallest thumbnail is written to `l.d/0/1.jpg`, and looked for
-- in `l.d/0/0.jpg`.
def backedLibrary : DiskCache := ⟨['l'], true, false⟩

theorem backedLibrary_not_sameFile : ¬ backedLibrary.SameFile 1 0 := by
  intro h
  have hfile := h "l.d/0/1.jpg".toList (by decide) "l.d/0/0.jpg".toList (by decide)
  exact absurd hfile (by decide)

end DTLite
