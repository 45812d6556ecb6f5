import DTLite.Common.Pdf

/-!
# The cross-reference table of a PDF file

A reader of the file finds its objects by the positions in the table, so each has to be the one
where the object starts. The counters of the writer are right as long as no image is written:
`_pdf_write_stream` adds the size of a stream to the counter of the file, and `dt_pdf_add_image`
adds it again.
-/

namespace DTLite

open Reasoning List Function PdfPiece

def PdfPiece.starts (id : Nat) : PdfPiece → Bool
  | object id' _ => id' == id
  | _ => false

def PdfPiece.isXref : PdfPiece → Bool
  | xref _ => true
  | _ => false

def PdfPiece.entry? : PdfPiece → Option Nat
  | entry offset => some offset
  | _ => none

def PdfPiece.startxref? : PdfPiece → Option Nat
  | startxref offset => some offset
  | _ => none

/-- The position at which an object starts. -/
def objectStart (id : Nat) (file : List PdfPiece) : Option Nat :=
  startOf PdfPiece.bytes (PdfPiece.starts id) file

/-- The offsets of the table, from the object 1 on. -/
def xrefTable (file : List PdfPiece) : List Nat := file.filterMap PdfPiece.entry?

/-- The table has the position of each object, and the number at the end of the file is the position
of the table. -/
structure OffsetsRight (file : List PdfPiece) : Prop where
  entries : ∀ k, (xrefTable file)[k]? = objectStart (k + 1) file
  startxref : ∃ n, file.findSome? PdfPiece.startxref? = some n ∧
    startOf PdfPiece.bytes PdfPiece.isXref file = some n

def hexPair (byte : UInt8) : Blob := [hexChar (byte.toNat / 16), hexChar (byte.toNat % 16)]

theorem map_buf_update (buf : Nat → UInt8) (m : Nat) (hi lo : UInt8) :
    (range ((m + 1) * 2)).map (update (update buf (2 * m) hi) (2 * m + 1) lo)
      = (range (m * 2)).map buf ++ [hi, lo] := by
  have hrange : range ((m + 1) * 2) = range (m * 2) ++ [2 * m, 2 * m + 1] := by
    rw [show (m + 1) * 2 = m * 2 + 1 + 1 by omega, range_succ, range_succ,
      show m * 2 = 2 * m by omega, append_assoc]
    rfl
  rw [hrange, map_append]
  congr 1
  · apply map_congr_left
    intro i hi
    have hlt := mem_range.mp hi
    rw [update_of_ne (by omega), update_of_ne (by omega)]
  · simp

theorem asciiHexLoop_eq (data : Blob) (i : Nat) (buf : Nat → UInt8) (out done : Blob) {len : Nat}
    (hlen : len = i + data.length)
    (hinv : data ≠ [] → out ++ (range (i % 256 * 2)).map buf = done)
    (hend : data = [] → out = done) :
    asciiHexLoop len i data buf out = done ++ data.flatMap hexPair := by
  induction data generalizing i buf out done with
  | nil => simpa [asciiHexLoop] using hend rfl
  | cons byte rest ih =>
    have hrest : len = i + 1 + rest.length := by
      rw [hlen, length_cons]
      omega
    have hslot : 2 * i % 512 = 2 * (i % 256) := by omega
    have hslot' : (2 * i + 1) % 512 = 2 * (i % 256) + 1 := by omega
    have hdone : out ++ ((range (i % 256 * 2)).map buf ++ hexPair byte) = done ++ hexPair byte := by
      rw [← append_assoc, hinv (cons_ne_nil byte rest)]
    have hbuf := map_buf_update buf (i % 256) (hexChar (byte.toNat / 16))
      (hexChar (byte.toNat % 16))
    rw [asciiHexLoop, hslot, hslot', flatMap_cons, ← append_assoc]
    apply ih (i + 1) _ _ _ hrest
    · intro hne
      have hmore : i + 1 ≠ len := by
        have := length_pos_of_ne_nil hne
        omega
      by_cases hfull : (i + 1) % 256 = 0
      · rw [hfull, hbuf, range_zero, map_nil, append_nil]
        exact hdone
      · rw [if_neg (by omega), show (i + 1) % 256 = i % 256 + 1 by omega, hbuf]
        exact hdone
    · intro hnil
      have hlast : i + 1 = len := by simp [hrest, hnil]
      rw [if_pos (.inr hlast), hbuf]
      exact hdone

theorem asciiHex_length (data : Blob) :
    (pdfStreamEncoderAsciiHex data).1.length = (pdfStreamEncoderAsciiHex data).2 := by
  have hloop := asciiHexLoop_eq data 0 (fun _ => 0) [] [] (Nat.zero_add _).symm
    (fun _ => rfl) fun _ => rfl
  rw [pdfStreamEncoderAsciiHex, hloop]
  simp [hexPair]

/-! ## While the counters are right -/

/-- The counters add up to the length of the file, and the `known` objects start where the offsets
say. -/
structure Writing.Exact (w : Writing) (known : Nat → Prop) : Prop where
  counted : (written PdfPiece.bytes w.pdf.file).length = w.pdf.bytesWritten + w.bytesWritten
  located : ∀ id, known id → objectStart id w.pdf.file = some (w.pdf.offsets id)
  absent : ∀ id, ¬ known id → objectStart id w.pdf.file = none

open Writing

theorem written_concat (file : List PdfPiece) (piece : PdfPiece) :
    (written bytes (file ++ [piece])).length =
      (written bytes file).length + piece.bytes.length := by
  simp

theorem objectStart_concat_text (id : Nat) (file : List PdfPiece) (bytes : Blob) :
    objectStart id (file ++ [.text bytes]) = objectStart id file :=
  startOf_append_of_none _ _ rfl

theorem objectStart_concat_ne {id id' : Nat} (h : id' ≠ id) (file : List PdfPiece) (body : Blob) :
    objectStart id (file ++ [.object id' body]) = objectStart id file := by
  apply startOf_append_of_none
  apply startOf_eq_none
  simp [starts, h]

theorem objectStart_concat_new {id : Nat} {file : List PdfPiece}
    (h : objectStart id file = none) (body : Blob) :
    objectStart id (file ++ [.object id body]) = some (written bytes file).length :=
  startOf_concat_new bytes h (by simp [starts])

namespace Writing.Exact

variable {w : Writing} {known known' : Nat → Prop}

section

variable (h : w.Exact known)
include h

theorem congr (hiff : ∀ id, known id ↔ known' id) : w.Exact known' where
  counted := h.counted
  located id hid := h.located id ((hiff id).mpr hid)
  absent id hid := h.absent id fun hknown => hid ((hiff id).mp hknown)

theorem text (bytes : Blob) : (w.fprintf (.text bytes)).Exact known where
  counted := by
    have hcounted := h.counted
    simp only [fprintf, written_concat]
    omega
  located id hid := (objectStart_concat_text ..).trans (h.located id hid)
  absent id hid := (objectStart_concat_text ..).trans (h.absent id hid)

theorem stream {bytes : Blob} {size : Nat} (hsize : bytes.length = size) :
    ((w.fwrite bytes).count size).Exact known := by
  subst hsize
  exact h.text bytes

theorem stream_late (bytes tail : Blob) :
    (((w.fwrite bytes).fprintf (.text tail)).count bytes.length).Exact known := by
  have hswap : ((w.fwrite bytes).fprintf (.text tail)).count bytes.length =
      ((w.fwrite bytes).count bytes.length).fprintf (.text tail) := by
    simp only [fprintf, count, Nat.add_right_comm]
  rw [hswap]
  exact (h.stream rfl).text tail

theorem object (id : Nat) (hid : ¬ known id) (body : Blob) :
    ((w.setOffset id).fprintf (.object id body)).Exact fun i => i = id ∨ known i where
  counted := by
    have hcounted := h.counted
    simp only [fprintf, setOffset, written_concat]
    omega
  located i hi := by
    by_cases heq : i = id
    · subst heq
      simp only [fprintf, setOffset, update_self]
      rw [objectStart_concat_new (h.absent i hid), h.counted]
    · simp only [fprintf, setOffset, update_of_ne heq]
      rw [objectStart_concat_ne (Ne.symm heq)]
      exact h.located i (hi.resolve_left heq)
  absent i hi := by
    simp only [fprintf]
    rw [objectStart_concat_ne fun heq => hi (.inl heq.symm)]
    exact h.absent i fun hknown => hi (.inr hknown)

theorem close : w.close.writing.Exact known where
  __ := h

end

end Writing.Exact

/-- The state between two calls: the objects 1 and from 3 on are written. -/
def Pdf.Exact (pdf : Pdf) : Prop :=
  3 ≤ pdf.nextId ∧ pdf.writing.Exact fun id => id = 1 ∨ 3 ≤ id ∧ id < pdf.nextId

section Exact

variable (sys : PdfSystem)

theorem exact_dtPdfStart (width height dpi : Float32) (encoder : StreamEncoder) :
    (dtPdfStart sys width height dpi encoder).Exact := by
  have hempty : Exact (Pdf.writing
      { file := [], nextId := 3, nextImage := 0, bytesWritten := 0, pageWidth := width,
        pageHeight := height, dpi := dpi, defaultEncoder := encoder, offsets := sys.memory })
      fun _ => False :=
    ⟨rfl, fun _ h => h.elim, fun _ _ => rfl⟩
  refine ⟨le_refl 3, ((hempty.text _).object 1 not_false _).close.congr fun id => ?_⟩
  show id = 1 ∨ False ↔ id = 1 ∨ 3 ≤ id ∧ id < 3
  rw [or_false]
  omega

variable {pdf : Pdf}

section

variable (h : pdf.Exact)
include h

theorem Pdf.Exact.take (nextId nextImage : Nat) :
    { pdf with nextId := nextId, nextImage := nextImage }.writing.Exact
      fun id => id = 1 ∨ 3 ≤ id ∧ id < pdf.nextId :=
  ⟨h.2.counted, h.2.located, h.2.absent⟩

theorem Pdf.Exact.addIcc (data : Blob) : (dtPdfAddIccFromData pdf data).1.Exact := by
  have hids := h.1
  have hicc := (h.take (pdf.nextId + 2) pdf.nextImage).object pdf.nextId (by omega)
  have hstream := fun head => ((hicc head).stream (asciiHex_length data)).text
  have hlength := fun head tail => (hstream head tail).object (pdf.nextId + 1) (by omega)
  refine ⟨?_, (hlength _ _ _).close.congr fun id => ?_⟩
  · show 3 ≤ pdf.nextId + 2
    omega
  · show _ ↔ id = 1 ∨ 3 ≤ id ∧ id < pdf.nextId + 2
    omega

theorem Pdf.Exact.addPage (images : List PdfImage) : (dtPdfAddPage sys pdf images).1.Exact := by
  have hids := h.1
  have hpage := (h.take (pdf.nextId + 3) pdf.nextImage).object pdf.nextId (by omega)
  have hcontent := fun head xobjects tail =>
    (((hpage head).text xobjects).text tail).object (pdf.nextId + 1) (by omega)
  have hlength := fun head xobjects tail content =>
    ((hcontent head xobjects tail content).stream_late (images.flatMap (pageContent sys pdf))
      (ascii "endstream\nendobj\n")).object (pdf.nextId + 2) (by omega)
  refine ⟨?_, (hlength _ _ _ _ _).close.congr fun id => ?_⟩
  · show 3 ≤ pdf.nextId + 3
    omega
  · show _ ↔ id = 1 ∨ 3 ≤ id ∧ id < pdf.nextId + 3
    omega

theorem Pdf.Exact.run {call : PdfCall} (hcall : ¬ call.writesImage) :
    (call.run sys pdf).Exact := by
  cases call with
  | addIcc data => exact h.addIcc data
  | addPage images => exact h.addPage sys images
  | addImage image width height bpp iccId border =>
    cases image with
    | none => exact h
    | some data => exact absurd rfl hcall

theorem Pdf.Exact.runs {calls : List PdfCall}
    (hcalls : ∀ call ∈ calls, ¬ call.writesImage) : (calls.foldl (PdfCall.run sys) pdf).Exact := by
  induction calls generalizing pdf with
  | nil => exact h
  | cons call calls ih =>
    exact ih (h.run sys (hcalls call mem_cons_self)) fun c hc =>
      hcalls c (mem_cons_of_mem call hc)

end

end Exact

/-! ## What every call keeps -/

/-- Pieces that a call may add when the next id is `n`: no table, and no object with an older id. -/
def PdfPiece.newFrom (n : Nat) : PdfPiece → Bool
  | text _ => true
  | object id _ => n ≤ id
  | _ => false

/-- A call only adds to the file, and leaves the offsets of the older objects. -/
structure Pdf.Grows (pdf pdf' : Pdf) : Prop where
  nextId : pdf.nextId ≤ pdf'.nextId
  file : ∃ pieces, pdf'.file = pdf.file ++ pieces ∧ ∀ p ∈ pieces, p.newFrom pdf.nextId
  offsets : ∀ id < pdf.nextId, pdf'.offsets id = pdf.offsets id

theorem PdfPiece.newFrom_of_le {m n : Nat} {p : PdfPiece} (hmn : m ≤ n) (h : p.newFrom n) :
    p.newFrom m := by
  cases p with
  | text bytes => rfl
  | object id body =>
    have hle : n ≤ id := of_decide_eq_true h
    exact decide_eq_true (hmn.trans hle)
  | _ => cases h

namespace Pdf.Grows

theorem refl (pdf : Pdf) : pdf.Grows pdf := ⟨le_refl _, ⟨[], by simp⟩, fun _ _ => rfl⟩

theorem trans {pdf pdf' pdf'' : Pdf} (h : pdf.Grows pdf') (h' : pdf'.Grows pdf'') :
    pdf.Grows pdf'' := by
  obtain ⟨pieces, hfile, hnew⟩ := h.file
  obtain ⟨pieces', hfile', hnew'⟩ := h'.file
  refine ⟨h.nextId.trans h'.nextId, ⟨pieces ++ pieces', ?_, ?_⟩, ?_⟩
  · rw [hfile', hfile, append_assoc]
  · intro p hp
    rcases mem_append.mp hp with hp | hp
    · exact hnew p hp
    · exact newFrom_of_le h.nextId (hnew' p hp)
  · intro id hid
    rw [h'.offsets id (hid.trans_le h.nextId), h.offsets id hid]

variable {pdf : Pdf} {w : Writing}

theorem take (pdf : Pdf) (nextImage : Nat) {n : Nat} (hn : pdf.nextId ≤ n) :
    pdf.Grows { pdf with nextId := n, nextImage := nextImage }.writing.pdf :=
  ⟨hn, ⟨[], (append_nil _).symm, fun _ h => (not_mem_nil h).elim⟩, fun _ _ => rfl⟩

section

variable (h : pdf.Grows w.pdf)
include h

theorem piece {p : PdfPiece} (hp : p.newFrom pdf.nextId) : pdf.Grows (w.fprintf p).pdf := by
  obtain ⟨pieces, hfile, hnew⟩ := h.file
  refine ⟨h.nextId, ⟨pieces ++ [p], ?_, ?_⟩, h.offsets⟩
  · rw [← append_assoc, ← hfile]
    rfl
  · intro q hq
    rcases mem_append.mp hq with hq | hq
    · exact hnew q hq
    · rw [mem_singleton.mp hq]
      exact hp

theorem text (bytes : Blob) : pdf.Grows (w.fprintf (.text bytes)).pdf := h.piece rfl

theorem fwrite (bytes : Blob) : pdf.Grows (w.fwrite bytes).pdf := h.text bytes

theorem object {id : Nat} (hid : pdf.nextId ≤ id) (body : Blob) :
    pdf.Grows ((w.setOffset id).fprintf (.object id body)).pdf := by
  have hset : pdf.Grows (w.setOffset id).pdf := by
    refine ⟨h.nextId, h.file, fun i hi => ?_⟩
    rw [← h.offsets i hi]
    exact update_of_ne (by omega) ..
  exact hset.piece (decide_eq_true hid)

theorem count (n : Nat) : pdf.Grows (w.count n).pdf := h

theorem close : pdf.Grows w.close := ⟨h.nextId, h.file, h.offsets⟩

end

variable (sys : PdfSystem) (pdf)

theorem addIcc (data : Blob) : pdf.Grows (dtPdfAddIccFromData pdf data).1 :=
  ((((take pdf _ (by omega)).object (le_refl _) _).fwrite _).count _).text _
    |>.object (by omega) _
    |>.close

theorem addPage (images : List PdfImage) : pdf.Grows (dtPdfAddPage sys pdf images).1 :=
  ((take pdf _ (by omega)).object (le_refl _) _).text _
    |>.text _
    |>.object (by omega) _
    |>.fwrite _
    |>.text _
    |>.count _
    |>.object (by omega) _
    |>.close

theorem writeStream {pdf : Pdf} (h : pdf.Grows w.pdf) (encoder : StreamEncoder) (data : Blob) :
    pdf.Grows (pdfWriteStream sys w encoder data).1.pdf :=
  have hstream := h.fwrite _
  ⟨hstream.nextId, hstream.file, hstream.offsets⟩

theorem addImage (image : Option Blob) (width height bpp : Nat) (iccId : Int) (border : Float32) :
    pdf.Grows (dtPdfAddImage sys pdf image width height bpp iccId border).1 := by
  cases image with
  | none => exact refl pdf
  | some data =>
    have hhead := fun body =>
      (take pdf (pdf.nextImage + 1) (Nat.le_add_right _ 2)).object (le_refl _) body
    have hstream := fun body space rest =>
      (((hhead body).text space).text rest).writeStream sys pdf.defaultEncoder
        (data.take (width * height * 3 * (bpp / 8)))
    rw [dtPdfAddImage]
    split
    · exact hstream _ _ _
    · exact (((hstream _ _ _).count _).text _ |>.object (by omega) _).close

theorem run (call : PdfCall) : pdf.Grows (call.run sys pdf) := by
  cases call with
  | addIcc data => exact addIcc pdf data
  | addImage image width height bpp iccId border =>
    exact addImage pdf sys image width height bpp iccId border
  | addPage images => exact addPage pdf sys images

theorem runs (calls : List PdfCall) : pdf.Grows (calls.foldl (PdfCall.run sys) pdf) := by
  induction calls generalizing pdf with
  | nil => exact refl pdf
  | cons call calls ih => exact (run pdf sys call).trans (ih (call.run sys pdf))

end Pdf.Grows

theorem objectStart_of_grows {pdf pdf' : Pdf} (h : pdf.Grows pdf') {id : Nat}
    (hid : id < pdf.nextId) : objectStart id pdf'.file = objectStart id pdf.file := by
  obtain ⟨pieces, hfile, hnew⟩ := h.file
  rw [hfile]
  apply startOf_append_of_none
  apply startOf_eq_none
  intro p hp hstarts
  have hp := hnew p hp
  cases p with
  | object id' body =>
    have hle : pdf.nextId ≤ id' := of_decide_eq_true hp
    have heq : id' = id := by simpa [starts] using hstarts
    omega
  | _ => cases hstarts

/-- The table will be wrong about an object. -/
def Pdf.Mislaid (pdf : Pdf) : Prop :=
  ∃ id, 3 ≤ id ∧ id < pdf.nextId ∧ objectStart id pdf.file ≠ some (pdf.offsets id)

theorem Pdf.Grows.mislaid {pdf pdf' : Pdf} (h : pdf.Grows pdf') (hpdf : pdf.Mislaid) :
    pdf'.Mislaid := by
  obtain ⟨id, hid, hlt, hne⟩ := hpdf
  refine ⟨id, hid, hlt.trans_le h.nextId, ?_⟩
  rw [objectStart_of_grows h hlt, h.offsets id hlt]
  exact hne

theorem Writing.object_mislaid {w : Writing} {id : Nat} (hnew : objectStart id w.pdf.file = none)
    (hcount : (written bytes w.pdf.file).length ≠ w.pdf.bytesWritten + w.bytesWritten)
    (body : Blob) :
    objectStart id ((w.setOffset id).fprintf (.object id body)).pdf.file ≠
      some (((w.setOffset id).fprintf (.object id body)).pdf.offsets id) := by
  simp only [fprintf, setOffset, update_self]
  rw [objectStart_concat_new hnew, Ne, Option.some.injEq]
  exact hcount

theorem pdfWriteStream_length (sys : PdfSystem) (w : Writing) (encoder : StreamEncoder)
    (data : Blob) :
    (written bytes (pdfWriteStream sys w encoder data).1.pdf.file).length =
      (written bytes w.pdf.file).length + (pdfWriteStream sys w encoder data).2 := by
  cases encoder with
  | asciiHex => exact (written_concat ..).trans (congrArg _ (asciiHex_length data))
  | flate => exact written_concat ..

-- The length of an image's stream is mislaid: the stream was counted twice, or, if it is empty, the
-- object is not written at all.
theorem Pdf.Exact.mislaid_addImage (sys : PdfSystem) {pdf : Pdf} (h : pdf.Exact) (data : Blob)
    (width height bpp : Nat) (iccId : Int) (border : Float32) :
    (dtPdfAddImage sys pdf (some data) width height bpp iccId border).1.Mislaid := by
  have hids := h.1
  have hhead := fun body space rest =>
    (((h.take (pdf.nextId + 2) (pdf.nextImage + 1)).object pdf.nextId (by omega) body).text
      space).text rest
  rw [dtPdfAddImage]
  set head := imageHead _ pdf width height bpp iccId with hdef
  have hexact : head.Exact _ := hhead _ _ _
  have habsent : objectStart (pdf.nextId + 1) head.pdf.file = none := hexact.absent _ (by omega)
  set stream := pdfWriteStream sys head pdf.defaultEncoder
    (data.take (width * height * 3 * (bpp / 8))) with hstream
  have hnew : objectStart (pdf.nextId + 1) stream.1.pdf.file = none :=
    (objectStart_concat_text ..).trans habsent
  have hnext : pdf.nextId + 1 < pdf.nextId + 2 := Nat.lt_succ_self _
  refine ⟨pdf.nextId + 1, by omega, ?_, ?_⟩
  · split
    · exact hnext
    · exact hnext
  · split
    · rw [hnew]
      exact Option.some_ne_none _ |>.symm
    · apply object_mislaid
      · exact (objectStart_concat_text ..).trans hnew
      · have hlength := pdfWriteStream_length sys head pdf.defaultEncoder
          (data.take (width * height * 3 * (bpp / 8)))
        rw [← hstream] at hlength
        have hcounted := hexact.counted
        have hbytes : stream.1.pdf.bytesWritten = head.pdf.bytesWritten + stream.2 := rfl
        have hlocal : stream.1.bytesWritten = head.bytesWritten := rfl
        simp only [Writing.fprintf, Writing.count, written_concat]
        omega

/-! ## The end of the file -/

section Table

variable {body : List PdfPiece} (n start : Nat) (offsets : List Nat) (trailer : Blob)

theorem objectStart_xrefSection (id : Nat) :
    objectStart id (body ++ xrefSection n start offsets trailer) = objectStart id body := by
  apply startOf_append_of_none
  apply startOf_eq_none
  intro p hp
  simp only [xrefSection, mem_cons, mem_append, mem_map, not_mem_nil, or_false] at hp
  rcases hp with rfl | ⟨offset, -, rfl⟩ | rfl | rfl <;> simp [starts]

variable (hbody : ∀ p ∈ body, p.newFrom 0)
include hbody

theorem xrefTable_xrefSection :
    xrefTable (body ++ xrefSection n start offsets trailer) = offsets := by
  have hnone : body.filterMap entry? = [] := by
    rw [filterMap_eq_nil_iff]
    intro p hp
    have hnew := hbody p hp
    cases p with
    | entry offset => cases hnew
    | _ => rfl
  have hentries : (offsets.map entry).filterMap entry? = offsets := by
    rw [filterMap_map]
    exact filterMap_some
  rw [xrefTable, xrefSection, filterMap_append, hnone,
    filterMap_cons_none rfl, filterMap_append, hentries]
  exact append_nil _

theorem startOf_xrefSection :
    startOf bytes isXref (body ++ xrefSection n start offsets trailer) =
      some (written bytes body).length := by
  have hnone : startOf bytes isXref body = none := by
    apply startOf_eq_none
    intro p hp hxref
    have hnew := hbody p hp
    cases p with
    | xref count => cases hnew
    | _ => cases hxref
  rw [startOf_append, hnone]
  rfl

theorem startxref_xrefSection :
    (body ++ xrefSection n start offsets trailer).findSome? startxref? = some start := by
  have hnone : body.findSome? startxref? = none := by
    rw [findSome?_eq_none_iff]
    intro p hp
    have hnew := hbody p hp
    cases p with
    | startxref offset => cases hnew
    | _ => rfl
  have hentries : (offsets.map entry).findSome? startxref? = none := by
    simp [startxref?]
  rw [findSome?_append, hnone, xrefSection, findSome?_cons, findSome?_append, hentries]
  rfl

end Table

section Finish

variable (sys : PdfSystem) (pdf : Pdf) (pages : List PdfPage)

theorem writePagesAndInfo_file :
    ∃ kids mid tail title date producer, (writePagesAndInfo sys pdf pages).file = pdf.file ++
      [.object 2 kids, .text mid, .text tail, .object pdf.nextId title, .text date,
        .text producer] :=
  ⟨_, _, _, _, _, _, by
    simp only [writePagesAndInfo, fprintf, setOffset, append_assoc]
    rfl⟩

theorem writePagesAndInfo_offsets {id : Nat} (htwo : id ≠ 2) (hinfo : id ≠ pdf.nextId) :
    (writePagesAndInfo sys pdf pages).offsets id = pdf.offsets id :=
  (update_of_ne hinfo ..).trans (update_of_ne htwo ..)

theorem dtPdfFinish_eq :
    ∃ trailer, dtPdfFinish sys pdf pages = (writePagesAndInfo sys pdf pages).file ++
      xrefSection (pdf.nextId + 1) (writePagesAndInfo sys pdf pages).bytesWritten
        ((range pdf.nextId).map fun i => (writePagesAndInfo sys pdf pages).offsets (i + 1))
        trailer :=
  ⟨_, rfl⟩

variable {pdf}

theorem body_writePagesAndInfo (hbody : ∀ p ∈ pdf.file, p.newFrom 0) :
    ∀ p ∈ (writePagesAndInfo sys pdf pages).file, p.newFrom 0 := by
  obtain ⟨_, _, _, _, _, _, hfile⟩ := writePagesAndInfo_file sys pdf pages
  intro p hp
  rw [hfile, mem_append] at hp
  rcases hp with hp | hp
  · exact hbody p hp
  · simp only [mem_cons, not_mem_nil, or_false] at hp
    rcases hp with rfl | rfl | rfl | rfl | rfl | rfl <;> simp [newFrom]

theorem Pdf.Exact.pagesAndInfo (h : pdf.Exact) :
    (writePagesAndInfo sys pdf pages).writing.Exact fun id => 1 ≤ id ∧ id < pdf.nextId + 1 := by
  have hids := h.1
  have hpages := (h.take (pdf.nextId + 1) pdf.nextImage).object 2 (by omega)
  have hinfo := fun head kids count =>
    (((hpages head).text kids).text count).object pdf.nextId (by omega)
  refine ((((hinfo _ _ _ _).text _).text _).close.congr fun id => ?_)
  omega

theorem Pdf.Exact.offsetsRight (h : pdf.Exact) (hbody : ∀ p ∈ pdf.file, p.newFrom 0) :
    OffsetsRight (dtPdfFinish sys pdf pages) := by
  have hexact := h.pagesAndInfo sys pages
  have hbody' := body_writePagesAndInfo sys pages hbody
  obtain ⟨trailer, hfile⟩ := dtPdfFinish_eq sys pdf pages
  rw [hfile]
  constructor
  · intro k
    rw [xrefTable_xrefSection _ _ _ _ hbody', objectStart_xrefSection, getElem?_map]
    by_cases hk : k < pdf.nextId
    · rw [getElem?_range hk]
      exact (hexact.located (k + 1) (by omega)).symm
    · rw [getElem?_eq_none (by simpa using hk)]
      exact (hexact.absent (k + 1) (by omega)).symm
  · refine ⟨_, startxref_xrefSection _ _ _ _ hbody', ?_⟩
    rw [startOf_xrefSection _ _ _ _ hbody']
    exact congrArg some hexact.counted

theorem Pdf.Mislaid.not_offsetsRight (h : pdf.Mislaid) (hbody : ∀ p ∈ pdf.file, p.newFrom 0) :
    ¬ OffsetsRight (dtPdfFinish sys pdf pages) := by
  intro hright
  obtain ⟨id, hid, hlt, hne⟩ := h
  obtain ⟨trailer, hfile⟩ := dtPdfFinish_eq sys pdf pages
  obtain ⟨_, _, _, _, _, _, hadded⟩ := writePagesAndInfo_file sys pdf pages
  have hentry := hright.entries (id - 1)
  have hold : objectStart id (writePagesAndInfo sys pdf pages).file = objectStart id pdf.file := by
    rw [hadded]
    apply startOf_append_of_none
    apply startOf_eq_none
    have htwo : ¬ 2 = id := by omega
    have hinfo : ¬ pdf.nextId = id := by omega
    simp [starts, htwo, hinfo]
  rw [hfile, xrefTable_xrefSection _ _ _ _ (body_writePagesAndInfo sys pages hbody),
    objectStart_xrefSection, show id - 1 + 1 = id by omega, hold, getElem?_map,
    getElem?_range (by omega)] at hentry
  apply hne
  rw [← hentry, Option.map_some, show id - 1 + 1 = id by omega,
    writePagesAndInfo_offsets sys pdf pages (by omega) (by omega)]

end Finish

section Runs

variable (sys : PdfSystem) (width height dpi : Float32) (encoder : StreamEncoder)

theorem body_run (calls : List PdfCall) :
    ∀ p ∈ (calls.foldl (PdfCall.run sys) (dtPdfStart sys width height dpi encoder)).file,
      p.newFrom 0 := by
  obtain ⟨pieces, hfile, hnew⟩ :=
    (Pdf.Grows.runs (dtPdfStart sys width height dpi encoder) sys calls).file
  intro p hp
  rw [hfile, mem_append] at hp
  rcases hp with hp | hp
  · have hstart : p ∈ [text _, object 1 _] := hp
    simp only [mem_cons, not_mem_nil, or_false] at hstart
    rcases hstart with rfl | rfl <;> simp [newFrom]
  · exact newFrom_of_le (Nat.zero_le _) (hnew p hp)

theorem mislaid_runs {pdf : Pdf} (h : pdf.Exact) {calls : List PdfCall}
    (himage : ∃ call ∈ calls, call.writesImage) :
    (calls.foldl (PdfCall.run sys) pdf).Mislaid := by
  induction calls generalizing pdf with
  | nil => simp at himage
  | cons call calls ih =>
    by_cases hcall : call.writesImage
    · cases call with
      | addImage image width height bpp iccId border =>
        cases image with
        | none => cases hcall
        | some data =>
          exact (Pdf.Grows.runs _ sys calls).mislaid (h.mislaid_addImage sys data ..)
      | _ => cases hcall
    · apply ih (h.run sys hcall)
      simpa [hcall] using himage

/-- The cross-reference table and the number at the end of the file are right exactly if no image
was written. -/
theorem pdfFile_offsetsRight_iff (calls : List PdfCall) (pages : List PdfPage) :
    OffsetsRight (pdfFile sys width height dpi encoder calls pages) ↔
      ∀ call ∈ calls, ¬ call.writesImage := by
  have hstart := exact_dtPdfStart sys width height dpi encoder
  have hbody := body_run sys width height dpi encoder calls
  constructor
  · intro hright call hcall himage
    have hmislaid := mislaid_runs sys hstart ⟨call, hcall, himage⟩
    exact hmislaid.not_offsetsRight sys pages hbody hright
  · intro houtlines
    exact (hstart.runs sys houtlines).offsetsRight sys pages hbody

end Runs

def onePixelFile : List PdfPiece :=
  pdfFile
    { compress := id, dtostr := fun _ => [], timeStr := [], packageString := ascii "darktable"
      title := none, memory := fun _ => 0 }
    595 842 300 .asciiHex [.addImage (some [255, 0, 0]) 1 1 8 0 0] []

-- The object with the length of the stream starts at 274, and the table says six bytes later.
theorem onePixelFile_not_offsetsRight :
    (xrefTable onePixelFile)[3]? = some 280 ∧ objectStart 4 onePixelFile = some 274 ∧
      ¬ OffsetsRight onePixelFile := by
  have hlisted : (xrefTable onePixelFile)[3]? = some 280 := by decide +kernel
  have hstart : objectStart 4 onePixelFile = some 274 := by decide +kernel
  refine ⟨hlisted, hstart, fun hright => ?_⟩
  have hentry := hright.entries 3
  rw [hlisted] at hentry
  cases hentry

end DTLite
