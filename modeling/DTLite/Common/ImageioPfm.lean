import Mathlib.Data.List.Basic

/-!
# Loading portable float maps

`dt_imageio_open_pfm` reads the samples of a colour image to the front of its buffer, spreads them
out to four channels a pixel within that buffer, from the last pixel to the first, and turns the
rows upside down.
-/

namespace DTLite

open Function List

-- `dt_imageio_retval_t`
inductive ImageioError
  | fileCorrupted
  | cacheFull
deriving DecidableEq, Repr

-- What `fscanf` reads of the header, and the words of the file behind it.
structure PfmFile where
  head : Char × Char
  width : Nat
  height : Nat
  scaleNonneg : Bool
  samples : List UInt32

-- `GUINT32_SWAP_LE_BE`
def swapLeBe (v : UInt32) : UInt32 :=
  (v <<< 24) ||| ((v &&& (0xff00 : UInt32)) <<< 8) ||| ((v >>> 8) &&& (0xff00 : UInt32)) |||
    (v >>> 24)

def PfmFile.order (bigEndian : Bool) (file : PfmFile) (v : UInt32) : UInt32 :=
  if xor file.scaleNonneg bigEndian then swapLeBe v else v

variable (order : UInt32 → UInt32)

-- One turn of the loop over the channels, for the pixel `p`.
def widenChannel (p : Nat) (buf : Nat → UInt32) (c : Nat) :
    Nat → UInt32 :=
  update buf (4 * p + c) (order (buf (3 * p + c)))

-- The loop over the pixels, from the last of `n` to the first.
def widenPixels (order : UInt32 → UInt32) : Nat → (Nat → UInt32) → Nat → UInt32
  | 0, buf => buf
  | p + 1, buf => widenPixels order p ([0, 1, 2].foldl (widenChannel order p) buf)

-- The loops for an image of one channel. A word that the file does not have is taken as 0.
def readGrey (file : PfmFile) (buf : Nat → UInt32) : Nat → UInt32 :=
  (List.range (file.width * file.height)).foldl (fun buf p =>
    [0, 1, 2].foldl (fun buf c =>
      update buf (4 * p + c) (order (file.samples.getD p 0))) buf) buf

-- `memcpy`
def copyWords (dest : Nat → UInt32) (d : Nat) (src : Nat → UInt32) (s len : Nat) : Nat → UInt32 :=
  fun k => if d ≤ k ∧ k < d + len then src (s + (k - d)) else dest k

def swapRows (width height : Nat) (buf : Nat → UInt32) (j : Nat) : Nat → UInt32 :=
  let line := copyWords (fun _ => 0) 0 buf (width * j * 4) (4 * width)
  let buf := copyWords buf (width * j * 4) buf (width * (height - 1 - j) * 4) (4 * width)
  copyWords buf (width * (height - 1 - j) * 4) line 0 (4 * width)

def flipRows (width height : Nat) (buf : Nat → UInt32) : Nat → UInt32 :=
  (List.range (height / 2)).foldl (swapRows width height) buf

/-- With the buffer of `dt_mipmap_cache_alloc`. -/
def dtImageioOpenPfm (bigEndian : Bool) (file : PfmFile) (buf : Option (Nat → UInt32)) :
    Except ImageioError (Nat → UInt32) :=
  if file.head.1 ≠ 'P' ∨ file.head.2 ≠ 'F' ∧ file.head.2 ≠ 'f' then .error .fileCorrupted
  else
    match buf with
    | none => .error .cacheFull
    | some buf =>
        let order := file.order bigEndian
        let pixels := file.width * file.height
        let buf := if file.head.2 = 'F' then
            widenPixels order pixels fun k => (file.samples.take (3 * pixels)).getD k (buf k)
          else readGrey order file buf
        .ok (flipRows file.width file.height buf)

/-- A colour image with all its samples. -/
def PfmFile.IsColour (file : PfmFile) : Prop :=
  file.head = ('P', 'F') ∧ 3 * (file.width * file.height) ≤ file.samples.length

/-- The words that are read where others have been written before are what the file has. -/
def WidensRight (pixels : Nat) (sample : Nat → UInt32) : Prop :=
  (2 ≤ pixels → order (order (sample 3)) = order (sample 4) ∧
    order (order (order (sample 3))) = order (sample 5)) ∧
  (3 ≤ pixels → order (order (sample 6)) = order (sample 8))

def widened (sample : Nat → UInt32) (p c : Nat) : UInt32 :=
  if p = 1 ∧ c = 1 then order (order (sample 3))
  else if p = 1 ∧ c = 2 then order (order (order (sample 3)))
  else if p = 2 ∧ c = 2 then order (order (sample 6))
  else order (sample (3 * p + c))

section Widen

variable {order : UInt32 → UInt32} {n p c : Nat} {buf sample : Nat → UInt32}

theorem widenPixel_of_ne {k : Nat} (hk : k < 4 * p ∨ 4 * p + 3 ≤ k) :
    [0, 1, 2].foldl (widenChannel order p) buf k = buf k := by
  simp only [foldl_cons, foldl_nil, widenChannel]
  rw [update_of_ne (by omega), update_of_ne (by omega), update_of_ne (by omega)]

theorem widenPixel_channel (hbuf : ∀ i < 3 * p + 3, buf i = sample i) (hc : c < 3) :
    [0, 1, 2].foldl (widenChannel order p) buf (4 * p + c) = widened order sample p c := by
  simp only [foldl_cons, foldl_nil, widenChannel, widened]
  -- a write and a later read of one pixel meet only for `p = 1` and `p = 2`
  rcases (by omega : p = 1 ∨ p = 2 ∨ p ≠ 1 ∧ p ≠ 2) with rfl | rfl | ⟨hp1, hp2⟩
  · rcases (by omega : c = 0 ∨ c = 1 ∨ c = 2) with rfl | rfl | rfl <;> simp_all
  · rcases (by omega : c = 0 ∨ c = 1 ∨ c = 2) with rfl | rfl | rfl <;> simp_all
  · rcases (by omega : c = 0 ∨ c = 1 ∨ c = 2) with rfl | rfl | rfl <;> grind

theorem widenPixels_of_le {k : Nat} (hk : 4 * n ≤ k) : widenPixels order n buf k = buf k := by
  induction n generalizing buf with
  | zero => rfl
  | succ p ih => rw [widenPixels, ih (by omega), widenPixel_of_ne (by omega)]

theorem widenPixels_channel (hbuf : ∀ i < 3 * n, buf i = sample i) (hp : p < n) (hc : c < 3) :
    widenPixels order n buf (4 * p + c) = widened order sample p c := by
  induction n generalizing buf with
  | zero => cases hp
  | succ m ih =>
    rw [widenPixels]
    by_cases hpm : p = m
    · subst hpm
      rw [widenPixels_of_le (by omega), widenPixel_channel hbuf hc]
    · refine ih (fun i hi => ?_) (by omega)
      rw [widenPixel_of_ne (by omega), hbuf i (by omega)]

theorem widened_eq_iff : (∀ p < n, ∀ c < 3, widened order sample p c = order (sample (3 * p + c))) ↔
    WidensRight order n sample := by
  constructor
  · intro h
    exact ⟨fun hn => ⟨h 1 hn 1 (by omega), h 1 hn 2 (by omega)⟩, fun hn => h 2 hn 2 (by omega)⟩
  · rintro ⟨h1, h2⟩ p hp c hc
    rw [widened]
    split_ifs with hone htwo hthree
    · obtain ⟨rfl, rfl⟩ := hone
      exact (h1 hp).1
    · obtain ⟨rfl, rfl⟩ := htwo
      exact (h1 hp).2
    · obtain ⟨rfl, rfl⟩ := hthree
      exact h2 hp
    · rfl

end Widen

/-! ## Turning the rows upside down -/

section Flip

variable {w h y j o : Nat} {buf src : Nat → UInt32}

theorem row_add_lt (hy : y < j) (ho : o < 4 * w) : w * y * 4 + o < w * j * 4 := by
  have hle : w * (y + 1) ≤ w * j := Nat.mul_le_mul_left w hy
  rw [Nat.mul_succ] at hle
  omega

theorem copyWords_row (d s : Nat) (ho : o < 4 * w) :
    copyWords buf (w * d * 4) src s (4 * w) (w * y * 4 + o) =
      if y = d then src (s + o) else buf (w * y * 4 + o) := by
  rw [copyWords]
  rcases Nat.lt_trichotomy y d with hy | rfl | hy
  · have hlt := row_add_lt hy ho
    rw [if_neg (by omega), if_neg (by omega)]
  · rw [if_pos (by omega), if_pos rfl, Nat.add_sub_cancel_left]
  · have hlt := @row_add_lt w d y (4 * w - 1) hy (by omega)
    rw [if_neg (by omega), if_neg (by omega)]

theorem swapRows_row (ho : o < 4 * w) : swapRows w h buf j (w * y * 4 + o) =
    if y = h - 1 - j then buf (w * j * 4 + o)
    else if y = j then buf (w * (h - 1 - j) * 4 + o) else buf (w * y * 4 + o) := by
  have hline : copyWords (fun _ => 0) 0 buf (w * j * 4) (4 * w) (0 + o) = buf (w * j * 4 + o) := by
    rw [copyWords, if_pos (by omega), Nat.add_sub_cancel_left]
  rw [swapRows, copyWords_row _ _ ho, copyWords_row _ _ ho, hline]

-- After `m` turns the rows of both ends have been exchanged.
theorem swapRows_foldl {m : Nat} (hm : m ≤ h / 2) (hy : y < h) (ho : o < 4 * w) :
    (range m).foldl (swapRows w h) buf (w * y * 4 + o) =
      buf (w * (if y < m ∨ h - m ≤ y then h - 1 - y else y) * 4 + o) := by
  induction m generalizing y with
  | zero => rw [if_neg (by omega), range_zero, foldl_nil]
  | succ m ih =>
    rw [range_succ, foldl_append, foldl_cons, foldl_nil, swapRows_row ho,
      ih (by omega) (by omega), ih (by omega) (by omega), ih (by omega) hy]
    split_ifs <;> first | omega | exact congrArg (fun z => buf (w * z * 4 + o)) (by omega)

theorem flipRows_row (hy : y < h) (ho : o < 4 * w) :
    flipRows w h buf (w * y * 4 + o) = buf (w * (h - 1 - y) * 4 + o) := by
  rw [flipRows, swapRows_foldl (Nat.le_refl _) hy ho]
  split_ifs with hends
  · rfl
  · exact congrArg (fun z => buf (w * z * 4 + o)) (by omega)

theorem pixel_lt {x : Nat} (hx : x < w) (hy : y < h) : w * (h - 1 - y) + x < w * h := by
  have hlt := @row_add_lt w (h - 1 - y) h (4 * x) (by omega) (by omega)
  omega

theorem forall_pixel_iff {P : Nat → Prop} :
    (∀ x < w, ∀ y < h, P (w * (h - 1 - y) + x)) ↔ ∀ p < w * h, P p := by
  constructor
  · intro hall p hp
    have hw : 0 < w := Nat.pos_of_lt_mul_right hp
    have hrow : p / w < h := Nat.div_lt_of_lt_mul hp
    have hlt : h - 1 - p / w < h := by
      generalize p / w = q at hrow
      omega
    have hat := hall (p % w) (Nat.mod_lt p hw) (h - 1 - p / w) hlt
    rwa [Nat.sub_sub_self (Nat.le_sub_one_of_lt hrow), Nat.div_add_mod] at hat
  · intro hall x hx y hy
    exact hall _ (pixel_lt hx hy)

theorem flipRows_widenPixels {order : UInt32 → UInt32} {sample : Nat → UInt32} {x c : Nat}
    (hbuf : ∀ i < 3 * (w * h), buf i = sample i) (hx : x < w) (hy : y < h) (hc : c < 3) :
    flipRows w h (widenPixels order (w * h) buf) (4 * (w * y + x) + c) =
      widened order sample (w * (h - 1 - y) + x) c := by
  have hindex : ∀ z, 4 * (w * z + x) + c = w * z * 4 + (4 * x + c) := by
    intro z
    omega
  rw [hindex, flipRows_row hy (by omega), ← hindex, widenPixels_channel hbuf (pixel_lt hx hy) hc]

end Flip

/-- Every pixel has the samples of the file for its column and the row at the same distance from
the other end, exactly if the samples that are overwritten too early do not matter. -/
theorem dtImageioOpenPfm_colour_iff (bigEndian : Bool) {file : PfmFile} (hfile : file.IsColour)
    (buf : Nat → UInt32) :
    (∃ loaded, dtImageioOpenPfm bigEndian file (some buf) = .ok loaded ∧
      ∀ x < file.width, ∀ y < file.height, ∀ c < 3,
        loaded (4 * (file.width * y + x) + c) = file.order bigEndian (file.samples.getD
          (3 * (file.width * (file.height - 1 - y) + x) + c) 0)) ↔
    WidensRight (file.order bigEndian) (file.width * file.height)
      fun k => file.samples.getD k 0 := by
  obtain ⟨hhead, hlength⟩ := hfile
  have hread : ∀ i < 3 * (file.width * file.height),
      (file.samples.take (3 * (file.width * file.height))).getD i (buf i) =
        file.samples.getD i 0 := by
    intro i hi
    simp [hi, getElem?_eq_getElem (Nat.lt_of_lt_of_le hi hlength)]
  have hload : dtImageioOpenPfm bigEndian file (some buf) = .ok (flipRows file.width file.height
      (widenPixels (file.order bigEndian) (file.width * file.height) fun k =>
        (file.samples.take (3 * (file.width * file.height))).getD k (buf k))) := by
    rw [dtImageioOpenPfm, hhead, if_neg (by decide)]
    dsimp only
    rw [if_pos rfl]
  rw [hload, ← widened_eq_iff, ← forall_pixel_iff]
  constructor
  · rintro ⟨loaded, hloaded, hright⟩ x hx y hy c hc
    cases hloaded
    rw [← hright x hx y hy c hc, flipRows_widenPixels hread hx hy hc]
  · intro hright
    refine ⟨_, rfl, fun x hx y hy c hc => ?_⟩
    rw [flipRows_widenPixels hread hx hy hc, hright x hx y hy c hc]

-- a row of two pixels, the second of them grey
def greyPixel : PfmFile := ⟨('P', 'F'), 2, 1, false, [1, 2, 3, 4, 4, 4]⟩

theorem dtImageioOpenPfm_colour_grey : ∃ loaded,
    dtImageioOpenPfm false greyPixel (some fun _ => 0) = .ok loaded ∧
      ∀ x < 2, ∀ y < 1, ∀ c < 3,
        loaded (4 * (2 * y + x) + c) = greyPixel.order false
          (greyPixel.samples.getD (3 * (2 * (1 - 1 - y) + x) + c) 0) :=
  (dtImageioOpenPfm_colour_iff false ⟨rfl, by decide⟩ _).mpr ⟨by decide, by decide⟩

/-- The second pixel is loaded as 4, 4, 4. -/
theorem dtImageioOpenPfm_overwrites : ∃ loaded,
    dtImageioOpenPfm false ⟨('P', 'F'), 2, 1, false, [1, 2, 3, 4, 5, 6]⟩ (some fun _ => 0) =
      .ok loaded ∧ loaded 4 = 4 ∧ loaded 5 = 4 ∧ loaded 6 = 4 :=
  ⟨_, rfl, by decide, by decide, by decide⟩

end DTLite
