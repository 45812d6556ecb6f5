import DTLite.Common.XmpBlob

/-!
# Which texts the decoder can be given

The size of the first buffer comes from two characters of the text, and the offsets from a length
that is passed along with it.  Here: for which texts and lengths `dt_exif_xmp_decode` ends, with its
reads and writes where they should be.
-/

namespace DTLite

open List

/-- zlib with the sizes that the data need. -/
structure SizedZlib extends Zlib where
  need : Blob → Nat
  -- the buffer is too small
  uncompress_bufError : ∀ size packed, uncompress size packed = .bufError ↔ size < need packed
  uncompress_length : ∀ size packed data, uncompress size packed = .ok data → data.length ≤ size

def storedSizedZlib : SizedZlib where
  toZlib := storedZlib
  need packed := packed.tail.length
  uncompress_bufError size packed := by
    show (if packed.tail.length ≤ size then Uncompressed.ok packed.tail else .bufError) = _ ↔ _
    split
    · next h => exact iff_of_false Uncompressed.noConfusion (Nat.not_lt.mpr h)
    · next h => exact iff_of_true rfl (Nat.lt_of_not_le h)
  uncompress_length size packed data h := by
    rw [show storedZlib.uncompress size packed =
      if packed.tail.length ≤ size then .ok packed.tail else .bufError from rfl] at h
    split at h
    · next hle =>
      cases h
      exact hle
    · cases h

theorem not_ok_error {ε α : Type} (fault : ε) :
    ¬ ∃ output, (.error fault : Except ε α) = .ok output := by
  rintro ⟨output, h⟩
  cases h

theorem map_ok_iff {ε α β : Type} (f : α → β) (e : Except ε α) :
    (∃ output, e.map f = .ok output) ↔ ∃ output, e = .ok output := by
  cases e with
  | error fault => exact iff_of_false (not_ok_error fault) (not_ok_error fault)
  | ok output => exact iff_of_true ⟨_, rfl⟩ ⟨_, rfl⟩

variable {input : Text}

theorem readChar_inside {i : Nat} (h : i ≤ input.length) : ∃ c, readChar input i = .ok c := by
  have hlt : i < (input ++ [Char.ofNat 0]).length := by
    rw [length_append, length_singleton]
    omega
  refine ⟨(input ++ [Char.ofNat 0])[i], ?_⟩
  rw [readChar, getElem?_eq_getElem hlt]

theorem readChar_outside {i : Nat} (h : input.length < i) :
    readChar input i = .error .readsOutside := by
  have hle : (input ++ [Char.ofNat 0]).length ≤ i := by
    rw [length_append, length_singleton]
    omega
  rw [readChar, getElem?_eq_none hle]

theorem hexLoop_outside {size n i : Nat} (h : input.length < 2 * i + 1) :
    hexLoop input size (n + 1) i = .error .readsOutside := by
  rw [hexLoop]
  by_cases hhi : 2 * i ≤ input.length
  · obtain ⟨hi, hread⟩ := readChar_inside hhi
    rw [hread, readChar_outside h]
    rfl
  · rw [readChar_outside (Nat.lt_of_not_le hhi)]
    rfl

theorem hexLoop_ok_iff {size n i : Nat} (hsize : i + n ≤ size) :
    (∃ output, hexLoop input size n i = .ok output) ↔
      n = 0 ∨ 2 * (i + n) ≤ input.length + 1 := by
  induction n generalizing i with
  | zero => exact iff_of_true ⟨[], rfl⟩ (Or.inl rfl)
  | succ n ih =>
    by_cases hin : 2 * i + 1 ≤ input.length
    · obtain ⟨hi, hhi⟩ := readChar_inside (Nat.le_of_succ_le hin)
      obtain ⟨lo, hlo⟩ := readChar_inside hin
      rw [hexLoop_succ hhi hlo (by omega), map_ok_iff, ih (by omega)]
      omega
    · rw [hexLoop_outside (Nat.lt_of_not_le hin)]
      exact iff_of_false (not_ok_error _) (by omega)

section Rounds

variable (z : SizedZlib) {malloc : Nat → Bool} {buffer : Blob} {bufLen : Nat}

theorem uncompressLoop_of_need_le (h : z.need buffer ≤ bufLen) (rounds : Nat) :
    ∃ output, uncompressLoop z.toZlib malloc buffer (rounds + 1) bufLen = .ok output := by
  rw [uncompressLoop]
  split
  · cases hresult : z.uncompress bufLen buffer with
    | ok data => exact ⟨some data, if_pos (z.uncompress_length bufLen buffer data hresult)⟩
    | bufError => exact absurd ((z.uncompress_bufError bufLen buffer).mp hresult) (Nat.not_lt.mpr h)
    | dataError => exact ⟨none, rfl⟩
  · exact ⟨none, rfl⟩

theorem uncompressLoop_ends (hmalloc : ∀ size, 2 ^ 63 ≤ size → malloc size = false) (rounds : Nat)
    (h : 2 ^ 63 ≤ bufLen * 2 ^ rounds) :
    ∃ output, uncompressLoop z.toZlib malloc buffer (rounds + 1) bufLen = .ok output := by
  induction rounds generalizing bufLen with
  | zero =>
    rw [uncompressLoop, hmalloc bufLen (by omega)]
    exact ⟨none, rfl⟩
  | succ rounds ih =>
    by_cases hneed : z.need buffer ≤ bufLen
    · exact uncompressLoop_of_need_le z hneed (rounds + 1)
    · have hbuf := (z.uncompress_bufError bufLen buffer).mpr (Nat.lt_of_not_le hneed)
      rw [uncompressLoop, hbuf]
      split
      · next hblock =>
        have hlt : bufLen < 2 ^ 63 := by
          by_contra hle
          rw [hmalloc bufLen (Nat.le_of_not_lt hle)] at hblock
          cases hblock
        rw [Nat.mod_eq_of_lt (by omega : 2 * bufLen < 2 ^ 64)]
        apply ih
        rw [Nat.mul_assoc, Nat.mul_left_comm, ← Nat.pow_succ']
        exact h
      · exact ⟨none, rfl⟩

theorem uncompressLoop_zero (hmalloc : malloc 0 = true) (hneed : 0 < z.need buffer) (rounds : Nat) :
    uncompressLoop z.toZlib malloc buffer rounds 0 = .error .notEnded := by
  induction rounds with
  | zero => rfl
  | succ rounds ih =>
    rw [uncompressLoop, if_pos hmalloc, (z.uncompress_bufError 0 buffer).mpr hneed]
    exact ih

theorem uncompressLoop_ends_iff (hmalloc : ∀ size, 2 ^ 63 ≤ size → malloc size = false)
    (bufLen : Nat) :
    (∃ rounds output, uncompressLoop z.toZlib malloc buffer rounds bufLen = .ok output) ↔
      (malloc 0 → 0 < z.need buffer → 0 < bufLen) := by
  constructor
  · rintro ⟨rounds, output, h⟩ hzero hneed
    by_contra hbuf
    rw [Nat.eq_zero_of_not_pos hbuf, uncompressLoop_zero z hzero hneed] at h
    cases h
  · intro h
    by_cases hbuf : 0 < bufLen
    · exact ⟨64, uncompressLoop_ends z hmalloc 63 (by omega)⟩
    · by_cases hneed : 0 < z.need buffer
      · have hzero : malloc bufLen = false := by
          rw [Nat.eq_zero_of_not_pos hbuf]
          by_contra hblock
          exact hbuf (h (by simpa using hblock) hneed)
        exact ⟨1, none, by rw [uncompressLoop, hzero]; rfl⟩
      · exact ⟨1, uncompressLoop_of_need_le z (by omega) 0⟩

end Rounds

/-! ## The texts -/

theorem roundFloat_pos_iff (n : Nat) : 0 < roundFloat n ↔ 0 < n := by
  constructor
  · intro h
    by_contra hn
    rw [Nat.eq_zero_of_not_pos hn] at h
    cases h
  · exact roundFloat_pos

def headerFactor (input : Text) : Int :=
  10 * (charValue (input.getD 2 '0') - 48) + (charValue (input.getD 3 '0') - 48)

-- The factor gives a size for the buffer, and not 0 where something is to be put into it.
def FactorFits (z : SizedZlib) (malloc : Nat → Bool) (factor : Int) (buffer : Blob) : Prop :=
  (buffer ≠ [] → 0 ≤ factor) ∧ (malloc 0 → 0 < z.need buffer → 0 < factor ∧ buffer ≠ [])

/-- A compressed text has two digits, some base64 and a factor that fits; other digits reach as far
as the length says. -/
def DecodeSafe (z : SizedZlib) (malloc : Nat → Bool) (input : Text) (len : Int) : Prop :=
  if ['g', 'z'].isPrefixOf input then
    4 ≤ input.length ∧ (malloc (input.length - 3) →
      ∃ buffer, z.base64Decode (input.drop 4) = some buffer ∧
        FactorFits z malloc (headerFactor input) buffer)
  else
    isHexText input → malloc (sizeT (len.tdiv 2)) → 2 * len.tdiv 2 ≤ input.length + 1

section Texts

variable (z : SizedZlib) {malloc : Nat → Bool}
  (hmalloc : ∀ size, 2 ^ 63 ≤ size → malloc size = false)
include hmalloc

theorem firstBufLen_ends_iff (factor : Int) (buffer : Blob) :
    (∃ rounds output, (firstBufLen factor buffer.length).bind
        (uncompressLoop z.toZlib malloc buffer rounds) = .ok output) ↔
      FactorFits z malloc factor buffer := by
  rw [firstBufLen, FactorFits]
  split
  · next h =>
    refine iff_of_false (not_exists.mpr fun _ => not_ok_error _) fun hfits => ?_
    have := hfits.1 (fun hnil => h.2 (congrArg length hnil))
    omega
  · next h =>
    have hpos : 0 < roundFloat (factor.toNat * roundFloat buffer.length) ↔
        0 < factor ∧ buffer ≠ [] := by
      rw [roundFloat_pos_iff, Nat.pos_iff_ne_zero, Nat.mul_ne_zero_iff, ← Nat.pos_iff_ne_zero,
        ← Nat.pos_iff_ne_zero, roundFloat_pos_iff, length_pos_iff, Int.lt_toNat]
      rfl
    have hfactor : buffer ≠ [] → 0 ≤ factor := by
      intro hne
      have := length_pos_iff.mpr hne
      omega
    show (∃ rounds output, uncompressLoop z.toZlib malloc buffer rounds
      (roundFloat (factor.toNat * roundFloat buffer.length)) = .ok output) ↔ _
    rw [uncompressLoop_ends_iff z hmalloc, hpos, and_iff_right hfactor]

theorem decodePacked_ends_iff (tens ones : Char) (text : Text) :
    (∃ rounds output,
      decodePacked z.toZlib malloc rounds ('g' :: 'z' :: tens :: ones :: text) = .ok output) ↔
      (malloc (text.length + 1) → ∃ buffer, z.base64Decode text = some buffer ∧
        FactorFits z malloc (10 * (charValue tens - 48) + (charValue ones - 48)) buffer) := by
  simp only [decodePacked_cons]
  by_cases hblock : malloc (text.length + 1) = true
  · simp only [if_pos hblock]
    cases z.base64Decode text with
    | none =>
      refine iff_of_false (not_exists.mpr fun _ => not_ok_error _) fun h => ?_
      obtain ⟨buffer, hnone, -⟩ := h hblock
      cases hnone
    | some buffer =>
      trans FactorFits z malloc (10 * (charValue tens - 48) + (charValue ones - 48)) buffer
      · exact firstBufLen_ends_iff z hmalloc _ buffer
      · constructor
        · exact fun h _ => ⟨buffer, rfl, h⟩
        · intro h
          obtain ⟨buffer', hsome, hfits⟩ := h hblock
          cases hsome
          exact hfits
  · exact iff_of_true ⟨0, none, if_neg hblock⟩ fun h => absurd h hblock

theorem decodeHex_ends_iff (hhex : isHexText input) {len : Int}
    (hmin : -2 ^ 31 ≤ len) (hmax : len < 2 ^ 31) :
    (∃ output, decodeHex malloc input len = .ok output) ↔
      (malloc (sizeT (len.tdiv 2)) → 2 * len.tdiv 2 ≤ input.length + 1) := by
  have hhalf : -2 ^ 31 ≤ len.tdiv 2 ∧ len.tdiv 2 < 2 ^ 31 := by
    have hsign : Int.sign 2 = 1 := rfl
    rw [Int.tdiv_eq_ediv]
    split <;> omega
  rw [decodeHex_eq malloc hhex]
  by_cases hblock : malloc (sizeT (len.tdiv 2)) = true
  · -- a negative size is above every size there is a block for
    have hnonneg : 0 ≤ len.tdiv 2 := by
      by_contra hneg
      have hsize : 2 ^ 63 ≤ sizeT (len.tdiv 2) := by
        rw [sizeT]
        omega
      rw [hmalloc _ hsize] at hblock
      cases hblock
    have hsize : sizeT (len.tdiv 2) = (len.tdiv 2).toNat := by
      rw [sizeT]
      omega
    rw [if_pos hblock, map_ok_iff, hexLoop_ok_iff (by omega), imp_iff_right hblock]
    omega
  · rw [if_neg hblock]
    exact iff_of_true ⟨none, rfl⟩ fun h => absurd h hblock

/-- For every text and length, `dt_exif_xmp_decode` ends and keeps to its input and output exactly
in the safe cases. -/
theorem xmpDecodeRun_ends_iff (input : Text) {len : Int} (hmin : -2 ^ 31 ≤ len)
    (hmax : len < 2 ^ 31) :
    (∃ rounds output, xmpDecodeRun z.toZlib malloc rounds input len = .ok output) ↔
      DecodeSafe z malloc input len := by
  simp only [xmpDecodeRun, DecodeSafe]
  by_cases hgz : ['g', 'z'].isPrefixOf input = true
  · obtain ⟨rest, rfl⟩ := isPrefixOf_iff_prefix.mp hgz
    -- one or both of the digits may be missing
    rcases rest with _ | ⟨tens, _ | ⟨ones, text⟩⟩
    · apply iff_of_false (not_exists.mpr fun _ => not_ok_error _)
      exact fun h => absurd h.1 (by decide)
    · apply iff_of_false (not_exists.mpr fun _ => not_ok_error _)
      exact fun h => absurd h.1 (by simp)
    · have hlength : 4 ≤ (['g', 'z'] ++ tens :: ones :: text).length := by simp
      rw [and_iff_right hlength]
      exact decodePacked_ends_iff z hmalloc tens ones text
  · simp only [if_neg hgz, exists_const]
    by_cases hhex : isHexText input = true
    · rw [imp_iff_right hhex]
      exact decodeHex_ends_iff hmalloc hhex hmin hmax
    · exact iff_of_true ⟨none, if_neg hhex⟩ fun h => absurd h hhex

end Texts

-- Memory that does not run out, in blocks of up to `PTRDIFF_MAX` bytes.
def ampleMalloc (size : Nat) : Bool := size < 2 ^ 63

theorem ampleMalloc_large (size : Nat) (h : 2 ^ 63 ≤ size) : ampleMalloc size = false :=
  decide_eq_false (Nat.not_lt.mpr h)

-- Digits, and two bytes with the compression factor 1, which are uncompressed in the loop.
theorem xmpDecodeRun_ends_samples :
    (∃ rounds output, xmpDecodeRun storedZlib ampleMalloc rounds "00ff".toList 4 = .ok output) ∧
      ∃ rounds output,
        xmpDecodeRun storedZlib ampleMalloc rounds "gz01000708".toList 10 = .ok output := by
  constructor
  · exact (xmpDecodeRun_ends_iff storedSizedZlib ampleMalloc_large "00ff".toList (by decide)
      (by decide)).mpr fun _ _ => by decide
  · refine (xmpDecodeRun_ends_iff storedSizedZlib ampleMalloc_large "gz01000708".toList (by decide)
      (by decide)).mpr ⟨by decide, fun _ => ⟨[0, 7, 8], rfl, fun _ => by decide, fun _ _ => ?_⟩⟩
    exact ⟨by decide, by decide⟩

-- A compressed byte, with 0 for the compression factor.
def sampleZeroFactor : Text := "gz00".toList ++ storedZlib.base64Encode (storedZlib.compress [7])

/-- The buffer stays empty and the byte never fits; and a text of `gz` alone is read behind its
end. -/
theorem sampleZeroFactor_not_ended :
    (¬ ∃ rounds output, xmpDecodeRun storedZlib ampleMalloc rounds sampleZeroFactor
        sampleZeroFactor.length = .ok output) ∧
      xmpDecodeRun storedZlib ampleMalloc 1 "gz".toList 2 = .error .readsOutside := by
  refine ⟨?_, by decide⟩
  rintro ⟨rounds, output, h⟩
  have hfirst : firstBufLen (10 * (charValue '0' - 48) + (charValue '0' - 48)) 2 = .ok 0 := by
    decide
  have hnever : uncompressLoop storedZlib ampleMalloc [0, 7] rounds 0 = .error .notEnded :=
    uncompressLoop_zero storedSizedZlib (by decide) (by decide) rounds
  have htext : sampleZeroFactor = 'g' :: 'z' :: '0' :: '0' :: "0007".toList := by decide
  rw [xmpDecodeRun, htext, decodePacked_cons] at h
  have hloop : (firstBufLen (10 * (charValue '0' - 48) + (charValue '0' - 48)) 2).bind
      (uncompressLoop storedZlib ampleMalloc [0, 7] rounds) = .ok output := h
  rw [hfirst, ok_bind, hnever] at hloop
  cases hloop

end DTLite
