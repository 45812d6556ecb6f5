import DTLite.Common.HistoryTable
import Mathlib.Algebra.Ring.Int.Defs
import Mathlib.Algebra.Ring.Nat

/-!
# Memory blocks in a sidecar

`dt_exif_xmp_encode` writes a memory block as hexadecimal digits, or compressed and in base64 behind
the letters `gz` and two digits; `dt_exif_xmp_decode` reads both.
-/

namespace DTLite

open List

inductive Uncompressed where
  | ok (data : Blob)
  | bufError
  | dataError
deriving DecidableEq, Repr

/-- zlib and the base64 functions of glib, as far as they are documented. -/
structure Zlib where
  compress : Blob → Blob
  -- the size of the buffer comes first
  uncompress : Nat → Blob → Uncompressed
  base64Encode : Blob → Text
  -- `none` where the text is refused and the length of the data is not set
  base64Decode : Text → Option Blob
  compress_ne_nil : ∀ data, compress data ≠ []
  uncompress_compress : ∀ data size, uncompress size (compress data) =
    if data.length ≤ size then .ok data else .bufError
  base64Decode_encode : ∀ data, data ≠ [] → base64Decode (base64Encode data) = some data

def hexDigit (n : Nat) : Char := "0123456789abcdef".toList.getD n '0'

-- In the low byte.
def toBinary (c : Char) : UInt8 :=
  if 57 < c.toNat then UInt8.ofNat c.toNat - 97 + 10 else UInt8.ofNat c.toNat - 48

def hexText (input : Blob) : Text :=
  input.flatMap fun byte => [hexDigit (byte.toNat / 16), hexDigit (byte.toNat % 16)]

def hexBytes : Text → Blob
  | hi :: lo :: text => (toBinary hi <<< 4 ||| toBinary lo) :: hexBytes text
  | _ => []

theorem hexDigit_isHex : ∀ n < 16, "0123456789abcdef".toList.contains (hexDigit n) = true := by
  decide

theorem toBinary_hexDigits : ∀ n < 256,
    toBinary (hexDigit (n / 16)) <<< 4 ||| toBinary (hexDigit (n % 16)) = UInt8.ofNat n := by
  decide +kernel

variable (z : Zlib) (input : Blob)

theorem hexBytes_hexText : hexBytes (hexText input) = input := by
  induction input with
  | nil => rfl
  | cons byte input ih =>
    show (toBinary (hexDigit (byte.toNat / 16)) <<< 4 ||| toBinary (hexDigit (byte.toNat % 16))) ::
      hexBytes (hexText input) = _
    rw [ih, toBinary_hexDigits _ byte.toNat_lt, UInt8.ofNat_toNat]

theorem length_hexText : (hexText input).length = 2 * input.length := by
  induction input with
  | nil => rfl
  | cons byte input ih =>
    show (hexText input).length + 1 + 1 = _
    rw [length_cons]
    omega

theorem hexText_isHex : ∀ c ∈ hexText input, "0123456789abcdef".toList.contains c = true := by
  intro c hc
  obtain ⟨byte, -, hc⟩ := mem_flatMap.mp hc
  have hbyte := byte.toNat_lt
  rcases mem_cons.mp hc with rfl | hc
  · exact hexDigit_isHex _ (by omega)
  · rw [mem_singleton.mp hc]
    exact hexDigit_isHex _ (by omega)

-- The libraries at their simplest: nothing is packed, and digits stand for base64. As in glib, a
-- text of one letter is refused.
def storedZlib : Zlib where
  compress data := 0 :: data
  uncompress size packed :=
    if packed.tail.length ≤ size then .ok packed.tail else .bufError
  base64Encode := hexText
  base64Decode text := if 1 < text.length then some (hexBytes text) else none
  compress_ne_nil _ := cons_ne_nil _ _
  uncompress_compress _ _ := rfl
  base64Decode_encode data hne := by
    have hlength : 0 < data.length := length_pos_iff.mpr hne
    rw [length_hexText, if_pos (by omega), hexBytes_hexText]

-- The setting `compress_xmp_tags`.
inductive CompressXmpTags where
  | always
  | onlyLargeEntries
  | never
deriving DecidableEq, Repr

-- With `COMPRESS_THRESHOLD` 100.
def CompressXmpTags.doCompress (len : Nat) : CompressXmpTags → Bool
  | .always => true
  | .onlyLargeEntries => 100 < len
  | .never => false

def dtExifXmpEncodeInternal (doCompress : Bool) : Text :=
  if doCompress then
    let packed := z.compress input
    -- we store the compression factor
    let factor := min (input.length / packed.length + 1) 99
    ['g', 'z', Char.ofNat (factor / 10 + 48), Char.ofNat (factor % 10 + 48)]
      ++ z.base64Encode packed
  else hexText input

def dtExifXmpEncode (config : CompressXmpTags) (input : Blob) : Text :=
  dtExifXmpEncodeInternal z input (config.doCompress input.length)

-- The text in its block, whose size is an `int`; with a size above `INT_MAX` there is no block.
def dtExifXmpEncodeInternal? (doCompress : Bool) : Option Text :=
  let output := dtExifXmpEncodeInternal z input doCompress
  if output.length + 1 < 2 ^ 31 then some output else none

-- What a call does not come back from, or not with what it should.
inductive DecodeFault where
  -- it goes on after the rounds it was given
  | notEnded
  | readsOutside
  | writesOutside
  -- `compressed_size` is used, but was not set
  | sizeNotSet
  -- a negative `float` is converted to `uLongf`
  | notRepresentable
deriving DecidableEq, Repr

-- `input[i]`, up to the zero behind the text.
def readChar (input : Text) (i : Nat) : Except DecodeFault Char :=
  match (input ++ [Char.ofNat 0])[i]? with
  | some c => .ok c
  | none => .error .readsOutside

-- `input + i` as a text.
def readText (input : Text) (i : Nat) : Except DecodeFault Text :=
  if i ≤ input.length then .ok (input.drop i) else .error .readsOutside

-- The value of a `char`, which is signed.
def charValue (c : Char) : Int := (c.toNat : Int).bmod 256

-- `g_base64_decode_inplace(buffer, &compressed_size)`.
def base64DecodeInplace (text : Text) : Except DecodeFault Blob :=
  match z.base64Decode text with
  | some buffer => .ok buffer
  | none => .error .sizeNotSet

-- The nearest `float`, which has 24 bits.
def roundFloat (n : Nat) : Nat :=
  let unit := 2 ^ (n.log2 - 23)
  let q := n / unit
  let r := n % unit
  (if unit < 2 * r ∨ (2 * r = unit ∧ q % 2 = 1) then q + 1 else q) * unit

-- `factor * compressed_size`.
def firstBufLen (factor : Int) (compressedSize : Nat) : Except DecodeFault Nat :=
  if factor < 0 ∧ compressedSize ≠ 0 then .error .notRepresentable
  else .ok (roundFloat (factor.toNat * roundFloat compressedSize))

-- "we re-try with increasing buffer sizes".
def uncompressLoop (z : Zlib) (malloc : Nat → Bool) (buffer : Blob) :
    Nat → Nat → Except DecodeFault (Option Blob)
  | 0, _ => .error .notEnded
  | rounds + 1, bufLen =>
      if malloc bufLen then
        match z.uncompress bufLen buffer with
        | .ok data => if data.length ≤ bufLen then .ok (some data) else .error .writesOutside
        | .bufError => uncompressLoop z malloc buffer rounds (2 * bufLen % 2 ^ 64)
        | .dataError => .ok none
      else .ok none

-- An `int` as a `size_t`.
def sizeT (i : Int) : Nat := (i % 2 ^ 64).toNat

-- The bytes from `output[i]` on, of an output of `size` bytes.
def hexLoop (input : Text) (size : Nat) : Nat → Nat → Except DecodeFault Blob
  | 0, _ => .ok []
  | n + 1, i => do
      let hi ← readChar input (2 * i)
      let lo ← readChar input (2 * i + 1)
      if i < size then
        return (toBinary hi <<< 4 ||| toBinary lo) :: (← hexLoop input size n (i + 1))
      else .error .writesOutside

variable (malloc : Nat → Bool) (rounds : Nat)

def decodePacked (input : Text) :
    Except DecodeFault (Option Blob) := do
  let tens ← readChar input 2
  let ones ← readChar input 3
  let text ← readText input 4
  if malloc (text.length + 1) then
    let buffer ← base64DecodeInplace z text
    let bufLen ← firstBufLen (10 * (charValue tens - 48) + (charValue ones - 48)) buffer.length
    uncompressLoop z malloc buffer rounds bufLen
  else return none

def isHexText (input : Text) : Bool :=
  input.all fun c => "0123456789abcdef".toList.contains c

def decodeHex (input : Text) (len : Int) :
    Except DecodeFault (Option Blob) := do
  -- make sure that we don't find any unexpected characters indicating corrupted data
  if isHexText input then
    let size := sizeT (len.tdiv 2)
    if malloc size then
      return some (← hexLoop input size (len.tdiv 2).toNat 0)
    else return none
  else return none

/-- `dt_exif_xmp_decode`, for so many rounds of its loop. `malloc` says for which sizes there is a
block, and the result is `none` for `NULL`. -/
def xmpDecodeRun (input : Text) (len : Int) :
    Except DecodeFault (Option Blob) :=
  if ['g', 'z'].isPrefixOf input then decodePacked z malloc rounds input
  else decodeHex malloc input len

/-- What the callers of `dt_exif_xmp_decode` get, who pass the length of the text, while there is
memory. -/
def dtExifXmpDecode (input : Text) : Option Blob :=
  (xmpDecodeRun z (fun _ => true) 64 input input.length).toOption.join

/-! ## What is written is read again -/

theorem readChar_append_cons (before : Text) (c : Char) (text : Text) :
    readChar (before ++ c :: text) before.length = .ok c := by
  rw [readChar, append_assoc, getElem?_append_right (Nat.le_refl _), Nat.sub_self]
  rfl

theorem hexLoop_succ {input : Text} {size n i : Nat} {hi lo : Char}
    (hhi : readChar input (2 * i) = .ok hi) (hlo : readChar input (2 * i + 1) = .ok lo)
    (hi' : i < size) :
    hexLoop input size (n + 1) i =
      (hexLoop input size n (i + 1)).map ((toBinary hi <<< 4 ||| toBinary lo) :: ·) := by
  rw [hexLoop, hhi, hlo]
  show (if i < size then _ else _) = _
  rw [if_pos hi']
  cases hexLoop input size n (i + 1) with
  | error fault => rfl
  | ok output => rfl

theorem hexLoop_eq_hexBytes {size : Nat} (before text : Text) {i : Nat}
    (hbefore : before.length = 2 * i) (hsize : i + text.length / 2 ≤ size) :
    hexLoop (before ++ text) size (text.length / 2) i = .ok (hexBytes text) := by
  match text with
  | [] => rfl
  | [c] =>
    rw [length_singleton, show 1 / 2 = 0 from by decide]
    rfl
  | hi :: lo :: text =>
    have hlength : (hi :: lo :: text).length / 2 = text.length / 2 + 1 := by
      rw [length_cons, length_cons]
      omega
    have hhi := readChar_append_cons before hi (lo :: text)
    have hlo := readChar_append_cons (before ++ [hi]) lo text
    have hrest := hexLoop_eq_hexBytes (before ++ [hi, lo]) text
      (by rw [length_append, hbefore]; rfl : (before ++ [hi, lo]).length = 2 * (i + 1))
      (by omega : i + 1 + text.length / 2 ≤ size)
    rw [append_assoc] at hlo hrest
    rw [length_append, hbefore] at hlo
    rw [hbefore] at hhi
    rw [hlength, hexLoop_succ hhi hlo (by omega)]
    exact congrArg (Except.map _) hrest

theorem not_gz_of_isHexText {input : Text} (hhex : isHexText input) :
    ['g', 'z'].isPrefixOf input = false := by
  cases hcase : ['g', 'z'].isPrefixOf input with
  | false => rfl
  | true =>
    obtain ⟨rest, hrest⟩ := isPrefixOf_iff_prefix.mp hcase
    have hg := all_eq_true.mp hhex 'g' (hrest ▸ mem_cons_self)
    cases hg

theorem sizeT_natCast {n : Nat} (h : n < 2 ^ 64) : sizeT n = n := by
  rw [sizeT]
  omega

theorem decodeHex_eq {input : Text} (hhex : isHexText input) (len : Int) :
    decodeHex malloc input len =
      if malloc (sizeT (len.tdiv 2)) then
        (hexLoop input (sizeT (len.tdiv 2)) (len.tdiv 2).toNat 0).map some
      else .ok none := by
  rw [decodeHex, if_pos hhex]
  show (if malloc (sizeT (len.tdiv 2)) then
    hexLoop input (sizeT (len.tdiv 2)) (len.tdiv 2).toNat 0 >>= fun output => pure (some output)
    else .ok none) = _
  cases hexLoop input (sizeT (len.tdiv 2)) (len.tdiv 2).toNat 0 with
  | error fault => rfl
  | ok output => rfl

theorem dtExifXmpDecode_hex {input : Text} (hhex : isHexText input)
    (hlength : input.length < 2 ^ 64) : dtExifXmpDecode z input = some (hexBytes input) := by
  have hcount : (input.length : Int).tdiv 2 = (input.length / 2 : Nat) := by
    rfl
  have hloop : hexLoop input (input.length / 2) (input.length / 2) 0 = .ok (hexBytes input) :=
    hexLoop_eq_hexBytes [] input rfl (by omega)
  rw [dtExifXmpDecode, xmpDecodeRun, if_neg (by rw [not_gz_of_isHexText hhex]; decide),
    decodeHex_eq _ hhex, hcount, sizeT_natCast (by omega), Int.toNat_natCast, hloop]
  rfl

theorem ok_bind {ε α β : Type} (a : α) (f : α → Except ε β) : (Except.ok a).bind f = f a := rfl

theorem decodePacked_cons (tens ones : Char) (text : Text) :
    decodePacked z malloc rounds ('g' :: 'z' :: tens :: ones :: text) =
      if malloc (text.length + 1) then
        match z.base64Decode text with
        | some buffer =>
            (firstBufLen (10 * (charValue tens - 48) + (charValue ones - 48)) buffer.length).bind
              (uncompressLoop z malloc buffer rounds)
        | none => .error .sizeNotSet
      else .ok none := by
  show (if malloc (text.length + 1) then (base64DecodeInplace z text).bind fun buffer => _
    else _) = _
  rw [base64DecodeInplace]
  cases z.base64Decode text with
  | none => rfl
  | some buffer =>
    rw [ok_bind]
    rfl

/-- The loop ends, with the data, once the buffer is large enough. -/
theorem uncompressLoop_compress {data : Blob} (hdata : data.length < 2 ^ 31) (rounds : Nat)
    {bufLen : Nat} (h : data.length ≤ bufLen * 2 ^ rounds) :
    uncompressLoop z (fun _ => true) (z.compress data) (rounds + 1) bufLen = .ok (some data) := by
  induction rounds generalizing bufLen with
  | zero =>
    have hfits : data.length ≤ bufLen := by omega
    rw [uncompressLoop, z.uncompress_compress, if_pos hfits]
    exact if_pos hfits
  | succ rounds ih =>
    rw [uncompressLoop, z.uncompress_compress]
    by_cases hfits : data.length ≤ bufLen
    · rw [if_pos hfits]
      exact if_pos hfits
    · rw [if_neg hfits]
      rw [Nat.mod_eq_of_lt (by omega)]
      apply ih
      rw [Nat.mul_assoc, Nat.mul_left_comm, ← Nat.pow_succ']
      exact h

theorem roundFloat_pos {n : Nat} (h : 0 < n) : 0 < roundFloat n := by
  have hunit : 2 ^ (n.log2 - 23) ≤ n :=
    Nat.le_trans (Nat.pow_le_pow_right (by decide) (Nat.sub_le _ _)) (Nat.log2_self_le (by omega))
  have hq : 0 < n / 2 ^ (n.log2 - 23) := Nat.div_pos hunit (Nat.two_pow_pos _)
  apply Nat.mul_pos _ (Nat.two_pow_pos _)
  split
  · omega
  · exact hq

theorem charValue_digit : ∀ n < 10, charValue (Char.ofNat (n + 48)) - 48 = n := by decide

theorem decode_packed {input : Blob} (hlength : input.length < 2 ^ 31) :
    dtExifXmpDecode z (dtExifXmpEncodeInternal z input true) = some input := by
  set packed := z.compress input with hpacked
  set factor := min (input.length / packed.length + 1) 99 with hfactor
  have hne : packed ≠ [] := z.compress_ne_nil input
  have hpos : 0 < packed.length := length_pos_iff.mpr hne
  have hrange : 1 ≤ factor ∧ factor ≤ 99 :=
    ⟨Nat.le_min.mpr ⟨Nat.le_add_left 1 _, by decide⟩, Nat.min_le_right _ _⟩
  have hdigits : 10 * (charValue (Char.ofNat (factor / 10 + 48)) - 48)
      + (charValue (Char.ofNat (factor % 10 + 48)) - 48) = (factor : Int) := by
    rw [charValue_digit _ (by omega), charValue_digit _ (by omega)]
    omega
  have hbuf : 1 ≤ roundFloat (factor * roundFloat packed.length) :=
    roundFloat_pos (Nat.mul_pos hrange.1 (roundFloat_pos hpos))
  have hloop : uncompressLoop z (fun _ => true) packed 64
      (roundFloat (factor * roundFloat packed.length)) = .ok (some input) :=
    uncompressLoop_compress z hlength 63 (by omega)
  have hrun : decodePacked z (fun _ => true) 64 ('g' :: 'z' :: Char.ofNat (factor / 10 + 48) ::
      Char.ofNat (factor % 10 + 48) :: z.base64Encode packed) = .ok (some input) := by
    rw [decodePacked_cons, z.base64Decode_encode packed hne, hdigits]
    exact hloop
  exact congrArg (fun r => (Except.toOption r).join) hrun

/-- A block of a length that an `int` can hold is read back as it was. -/
theorem decode_encodeInternal {input : Blob} (hlength : input.length < 2 ^ 31) (doCompress : Bool) :
    dtExifXmpDecode z (dtExifXmpEncodeInternal z input doCompress) = some input := by
  cases doCompress with
  | true => exact decode_packed z hlength
  | false =>
    have hhex : isHexText (hexText input) := all_eq_true.mpr (hexText_isHex input)
    show dtExifXmpDecode z (hexText input) = some input
    rw [dtExifXmpDecode_hex z hhex (by rw [length_hexText]; omega), hexBytes_hexText]

theorem decode_encode (config : CompressXmpTags) {input : Blob} (hlength : input.length < 2 ^ 31) :
    dtExifXmpDecode z (dtExifXmpEncode z config input) = some input :=
  decode_encodeInternal z hlength (config.doCompress input.length)

theorem length_encodeInternal (doCompress : Bool) :
    (dtExifXmpEncodeInternal z input doCompress).length =
      if doCompress then (z.base64Encode (z.compress input)).length + 4 else 2 * input.length := by
  cases doCompress with
  | true =>
    rw [dtExifXmpEncodeInternal, if_pos rfl, length_append]
    exact Nat.add_comm _ _
  | false => exact length_hexText input

/-- Every text that the encoder gives is read back as the block it was made of. There is a text if
its size is an `int`. -/
theorem decode_encodeInternal_produced (z : Zlib) {input : Blob} (hlength : input.length < 2 ^ 31)
    (doCompress : Bool) :
    (∀ text ∈ dtExifXmpEncodeInternal? z input doCompress,
      dtExifXmpDecode z text = some input) ∧
    ((dtExifXmpEncodeInternal? z input doCompress).isSome ↔
      if doCompress then (z.base64Encode (z.compress input)).length + 5 < 2 ^ 31
      else input.length < 2 ^ 30) := by
  constructor
  · intro text htext
    obtain ⟨-, ⟨⟩⟩ := Option.ite_none_right_eq_some.mp htext
    exact decode_encodeInternal z hlength doCompress
  · rw [dtExifXmpEncodeInternal?, Option.isSome_ite, length_encodeInternal]
    split
    · rfl
    · omega

theorem decode_encodeInternal_packed : ∃ text,
    dtExifXmpEncodeInternal? storedZlib [1, 2, 255] true = some text ∧
      dtExifXmpDecode storedZlib text = some [1, 2, 255] := by
  have h := @decode_encodeInternal_produced storedZlib [1, 2, 255] (by decide) true
  obtain ⟨text, htext⟩ := Option.isSome_iff_exists.mp (h.2.mpr (by decide))
  exact ⟨text, htext, h.1 text htext⟩

end DTLite
