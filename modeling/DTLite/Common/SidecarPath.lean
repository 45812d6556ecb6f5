import DTLite.Common.Image

/-!
# The names of sidecar files

`dt_image_write_sidecar_file` puts the version of an image in front of the last dot of its path and
`.xmp` behind it, in a buffer of `PATH_MAX` bytes.  A character of a path stands for a byte here.
-/

namespace DTLite

open Reasoning List

-- What `snprintf`, `g_strlcpy` and `g_strlcat` leave of `text` behind `name` in a buffer of `len`
-- bytes, one of them for the 0 at the end.
def appendInto (len : Nat) (name text : Path) : Path := name ++ text.take (len - 1 - name.length)

/-- `dt_image_path_append_version_no_db` with its `pathname_len`. -/
def appendVersionInto (pathnameLen version : Nat) (pathname : Path) : Path :=
  if 0 < version then
    let versioned :=
      appendInto pathnameLen (lastSplit '.' pathname).1 ('_' :: printPadded '0' 2 version)
    appendInto pathnameLen versioned (lastSplit '.' pathname).2
  else pathname

/-- The name that `dt_image_write_sidecar_file` makes of the path of an image. -/
def sidecarPath (pathMax version : Nat) (pathname : Path) : Path :=
  appendInto pathMax (appendVersionInto pathMax version pathname) xmpExt

def fullSidecarPath (version : Nat) (pathname : Path) : Path :=
  dtImagePathAppendVersionNoDb version pathname ++ xmpExt

theorem appendInto_take (len : Nat) (name text : Path) :
    appendInto len (name.take (len - 1)) text = (name ++ text).take (len - 1) := by
  rw [appendInto, take_append, length_take]
  congr 2
  omega

/-- A path that fits into the buffer gives the first bytes of the whole name. -/
theorem sidecarPath_eq_take {pathMax version : Nat} {pathname : Path}
    (hfits : pathname.length < pathMax) :
    sidecarPath pathMax version pathname =
      (fullSidecarPath version pathname).take (pathMax - 1) := by
  have hself : pathname.take (pathMax - 1) = pathname := take_of_length_le (by omega)
  have hstem : (lastSplit '.' pathname).1.take (pathMax - 1) = (lastSplit '.' pathname).1 := by
    apply take_of_length_le
    have := length_lastSplit '.' pathname
    omega
  have hversion : appendVersionInto pathMax version pathname =
      (dtImagePathAppendVersionNoDb version pathname).take (pathMax - 1) := by
    rw [appendVersionInto, dtImagePathAppendVersionNoDb]
    split
    · rw [← hstem, appendInto_take, appendInto_take, hstem]
    · exact hself.symm
  rw [sidecarPath, hversion, appendInto_take, fullSidecarPath]

/-- The file at `p` is named like the version `version` of the file at `q`. -/
def NamedLike (p q : Path) (version : Nat) : Prop :=
  0 < version ∧
    (lastSplit '.' p).1 = (lastSplit '.' q).1 ++ '_' :: printPadded '0' 2 version ∧
    (lastSplit '.' p).2 = (lastSplit '.' q).2

instance (p q : Path) (version : Nat) : Decidable (NamedLike p q version) :=
  inferInstanceAs (Decidable (_ ∧ _ ∧ _))

section Names

variable {p q : Path} {v w : Nat}

theorem appendVersion_inj (hp : '.' ∈ p) (hq : '.' ∈ q) (hv : 0 < v) (hw : 0 < w)
    (h : dtImagePathAppendVersionNoDb v p = dtImagePathAppendVersionNoDb w q) :
    p = q ∧ v = w := by
  obtain ⟨x, u, rfl, hu, hsplit⟩ := exists_lastSplit hp
  obtain ⟨y, u', rfl, hu', hsplit'⟩ := exists_lastSplit hq
  rw [dtImagePathAppendVersionNoDb, dtImagePathAppendVersionNoDb, if_pos hv, if_pos hw, hsplit,
    hsplit'] at h
  obtain ⟨hstem, hext⟩ := append_cons_inj hu hu' h
  have hscore : ∀ n, '_' ∉ printPadded '0' 2 n := not_mem_printPadded_zero (by decide) 2
  obtain ⟨hxy, hprinted⟩ := append_cons_inj (hscore v) (hscore w) hstem
  exact ⟨by rw [show x = y from hxy, hext], printPadded_zero_inj hprinted⟩

theorem eq_appendVersion_iff (hp : '.' ∈ p) (hq : '.' ∈ q) (hw : 0 < w) :
    p = dtImagePathAppendVersionNoDb w q ↔ NamedLike p q w := by
  obtain ⟨x, u, rfl, hu, hsplit⟩ := exists_lastSplit hp
  obtain ⟨y, u', rfl, hu', hsplit'⟩ := exists_lastSplit hq
  rw [dtImagePathAppendVersionNoDb, if_pos hw, NamedLike, hsplit, hsplit']
  constructor
  · intro h
    obtain ⟨hstem, hext⟩ := append_cons_inj hu hu' h
    exact ⟨hw, hstem, by rw [hext]⟩
  · rintro ⟨-, hstem, hext⟩
    rw [show x = _ from hstem, show '.' :: u = _ from hext]

theorem appendVersion_injective_iff (hp : '.' ∈ p) (hq : '.' ∈ q) :
    (dtImagePathAppendVersionNoDb v p = dtImagePathAppendVersionNoDb w q → p = q ∧ v = w) ↔
      ¬ (v = 0 ∧ NamedLike p q w) ∧ ¬ (w = 0 ∧ NamedLike q p v) := by
  rcases Nat.eq_zero_or_pos v with rfl | hv
  · have hzero : dtImagePathAppendVersionNoDb 0 p = p := rfl
    rcases Nat.eq_zero_or_pos w with rfl | hw
    · exact iff_of_true (fun h => ⟨h, rfl⟩)
        ⟨fun h => absurd h.2.1 (by decide), fun h => absurd h.2.1 (by decide)⟩
    · rw [hzero, eq_appendVersion_iff hp hq hw]
      constructor
      · intro h
        refine ⟨fun hlike => ?_, fun hlike => absurd hlike.2.1 (by decide)⟩
        have := (h hlike.2).2
        omega
      · intro h hlike
        exact absurd ⟨rfl, hlike⟩ h.1
  · rcases Nat.eq_zero_or_pos w with rfl | hw
    · rw [show dtImagePathAppendVersionNoDb 0 q = q from rfl, eq_comm,
        eq_appendVersion_iff hq hp hv]
      constructor
      · intro h
        refine ⟨fun hlike => absurd hlike.2.1 (by decide), fun hlike => ?_⟩
        have := (h hlike.2).2
        omega
      · intro h hlike
        exact absurd ⟨rfl, hlike⟩ h.2
    · refine iff_of_true (appendVersion_inj hp hq hv hw) ⟨fun h => ?_, fun h => ?_⟩
      · exact absurd h.1 (by omega)
      · exact absurd h.1 (by omega)

end Names

/-- Where both whole names fit into the buffer: neither file has version 0 and is named like the
other image.  Names that are cut off differ at a byte that is left of them. -/
def SidecarsApart (pathMax : Nat) (p : Path) (v : Nat) (q : Path) (w : Nat) : Prop :=
  if (fullSidecarPath v p).length < pathMax ∧ (fullSidecarPath w q).length < pathMax then
    ¬ (v = 0 ∧ NamedLike p q w) ∧ ¬ (w = 0 ∧ NamedLike q p v)
  else
    (p = q ∧ v = w) ∨
      ∃ k < pathMax - 1, (fullSidecarPath v p)[k]? ≠ (fullSidecarPath w q)[k]?

instance (pathMax : Nat) (p : Path) (v : Nat) (q : Path) (w : Nat) :
    Decidable (SidecarsApart pathMax p v q w) :=
  inferInstanceAs (Decidable (ite _ _ _))

theorem take_ne_take_iff {n : Nat} {x y : Path} :
    x.take n ≠ y.take n ↔ ∃ k < n, x[k]? ≠ y[k]? := by
  rw [← not_iff_not]
  push Not
  constructor
  · intro h k hk
    rw [← getElem?_take_of_lt hk, h, getElem?_take_of_lt hk]
  · intro h
    apply ext_getElem?
    intro k
    rw [getElem?_take, getElem?_take]
    split
    next hk => exact h k hk
    · rfl

/-- Two images of files with an extension share a sidecar only if they are the same, exactly if
their names are apart. -/
theorem sidecarPath_injective_iff {pathMax : Nat} {p q : Path} (hp : '.' ∈ p) (hq : '.' ∈ q)
    (hpFits : p.length < pathMax) (hqFits : q.length < pathMax) (v w : Nat) :
    (sidecarPath pathMax v p = sidecarPath pathMax w q → p = q ∧ v = w) ↔
      SidecarsApart pathMax p v q w := by
  rw [sidecarPath_eq_take hpFits, sidecarPath_eq_take hqFits, SidecarsApart]
  split
  next hfits =>
    rw [take_of_length_le (Nat.le_sub_one_of_lt hfits.1),
      take_of_length_le (Nat.le_sub_one_of_lt hfits.2), fullSidecarPath, fullSidecarPath,
      append_left_inj]
    exact appendVersion_injective_iff hp hq
  next =>
    rw [imp_iff_or_not, ← take_ne_take_iff]

theorem sidecarPath_injective_versions :
    '.' ∈ "/p/a.r".toList ∧
      sidecarPath 4096 1 "/p/a.r".toList ≠ sidecarPath 4096 2 "/p/a.r".toList := by
  refine ⟨by decide, fun heq => ?_⟩
  have h := (sidecarPath_injective_iff (p := "/p/a.r".toList) (q := "/p/a.r".toList) (by decide)
    (by decide) (by decide) (by decide) 1 2).mpr (by decide) heq
  exact absurd h.2 (by decide)

/-- The first version of `/p/a.r` and a file that is called `/p/a_01.r`. -/
theorem sidecarPath_not_injective :
    ¬ (sidecarPath 4096 1 "/p/a.r".toList = sidecarPath 4096 0 "/p/a_01.r".toList →
      "/p/a.r".toList = "/p/a_01.r".toList ∧ 1 = 0) := by
  decide

end DTLite
