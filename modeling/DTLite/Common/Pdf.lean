import DTLite.Develop.Basic
import DTLite.Reasoning.Layout
import DTLite.Reasoning.Text

/-!
# Writing PDF files

A file is written from the front to the end, object after object, and ends with a table of the
positions of the objects. `dt_pdf_t` counts the bytes on the way.
-/

namespace DTLite

open Reasoning

def charBytes (text : List Char) : Blob := text.map fun c => UInt8.ofNat c.toNat

def ascii (text : String) : Blob := charBytes text.toList

-- `%d` and `%zu`.
def decimal (n : Nat) : Blob := charBytes (Nat.toDigits 10 n)

-- `%d` of a number that may be negative.
def decimalInt (n : Int) : Blob := if n < 0 then ascii "-" ++ decimal n.natAbs else decimal n.toNat

/-- The pieces of a file. Those that the table at its end is about are kept apart. -/
inductive PdfPiece
  | text (bytes : Blob)
  | object (id : Nat) (body : Blob)
  -- the head of the cross-reference table, one of its lines, and the end of the file
  | xref (count : Nat)
  | entry (offset : Nat)
  | startxref (offset : Nat)
deriving DecidableEq, Repr

def PdfPiece.bytes : PdfPiece → Blob
  | text bytes => bytes
  | object id body => decimal id ++ ascii " 0 obj\n" ++ body
  | xref count => ascii "xref\n0 " ++ decimal count ++ ascii "\n0000000000 65535 f \n"
  | entry offset => charBytes (printPadded '0' 10 offset) ++ ascii " 00000 n \n"
  | startxref offset => ascii "startxref\n" ++ decimal offset ++ ascii "\n%%EOF\n"

-- `dt_pdf_stream_encoder_t`.
inductive StreamEncoder
  | asciiHex
  | flate
deriving DecidableEq, Repr

-- `stream_encoder_filters`.
def streamEncoderFilter : StreamEncoder → String
  | .asciiHex => "/ASCIIHexDecode"
  | .flate => "/FlateDecode"

-- `dt_pdf_image_t`.
structure PdfImage where
  objectId : Nat := 0
  nameId : Nat := 0
  size : Nat := 0
  width : Nat
  height : Nat
  bbX : Float32
  bbY : Float32
  bbWidth : Float32
  bbHeight : Float32
  rotateToFit : Bool := false
  outlineMode : Bool
  showBb : Bool := false

-- `dt_pdf_page_t`.
structure PdfPage where
  objectId : Nat
  size : Nat

/-- `dt_pdf_t`, with the file. The offsets are indexed by the id of the object. -/
structure Pdf where
  file : List PdfPiece
  nextId : Nat
  nextImage : Nat
  bytesWritten : Nat
  pageWidth : Float32
  pageHeight : Float32
  dpi : Float32
  defaultEncoder : StreamEncoder
  offsets : Nat → Nat

/-- What the writer takes from outside. -/
structure PdfSystem where
  -- zlib's `compress`, which succeeds
  compress : Blob → Blob
  -- `g_ascii_dtostr`
  dtostr : Float → Blob
  -- the time, empty if there is none
  timeStr : Blob
  packageString : Blob
  title : Option Blob
  -- what the memory of the offsets holds before it is written to
  memory : Nat → Nat

/-- A function at work: beside the file it has a counter `bytes_written` of its own. -/
structure Writing where
  pdf : Pdf
  bytesWritten : Nat

variable (sys : PdfSystem) (w : Writing) (pdf : Pdf)

def Pdf.writing : Writing := ⟨pdf, 0⟩

namespace Writing

-- `_pdf_set_offset(pdf, id, pdf->bytes_written + bytes_written)`.
def setOffset (id : Nat) : Writing :=
  { w with pdf := { w.pdf with
      offsets := Function.update w.pdf.offsets id (w.pdf.bytesWritten + w.bytesWritten) } }

-- `fwrite`, and `fprintf` whose count is kept elsewhere.
def fwrite (bytes : Blob) : Writing :=
  { w with pdf := { w.pdf with file := w.pdf.file ++ [.text bytes] } }

-- `bytes_written += n`.
def count (n : Nat) : Writing := { w with bytesWritten := w.bytesWritten + n }

-- `bytes_written += fprintf(pdf->fd, …)`.
def fprintf (piece : PdfPiece) : Writing where
  pdf := { w.pdf with file := w.pdf.file ++ [piece] }
  bytesWritten := w.bytesWritten + piece.bytes.length

-- `pdf->bytes_written += bytes_written`.
def close : Pdf := { w.pdf with bytesWritten := w.pdf.bytesWritten + w.bytesWritten }

end Writing

def hexChar (n : Nat) : UInt8 := UInt8.ofNat (Nat.digitChar n).toNat

/-- The loop of `_pdf_stream_encoder_ASCIIHex`: the digits of the byte `i` go into a buffer of 512
characters, which is written out when it is full and at the end. -/
def asciiHexLoop (len : Nat) : Nat → Blob → (Nat → UInt8) → Blob → Blob
  | _, [], _, out => out
  | i, byte :: rest, buf, out =>
      let buf := Function.update buf (2 * i % 512) (hexChar (byte.toNat / 16))
      let buf := Function.update buf ((2 * i + 1) % 512) (hexChar (byte.toNat % 16))
      let out :=
        if (i + 1) % 256 = 0 ∨ i + 1 = len then out ++ (List.range ((i % 256 + 1) * 2)).map buf
        else out
      asciiHexLoop len (i + 1) rest buf out

-- What it writes, and what it returns.
def pdfStreamEncoderAsciiHex (data : Blob) : Blob × Nat :=
  (asciiHexLoop data.length 0 data (fun _ => 0) [], data.length * 2)

def pdfStreamEncoderFlate (data : Blob) : Blob × Nat :=
  (sys.compress data, (sys.compress data).length)

/-- Adds the size to the counter of the file. -/
def pdfWriteStream (encoder : StreamEncoder) (data : Blob) : Writing × Nat :=
  let stream :=
    match encoder with
    | .asciiHex => pdfStreamEncoderAsciiHex data
    | .flate => pdfStreamEncoderFlate sys data
  let w := w.fwrite stream.1
  ({ w with pdf := { w.pdf with bytesWritten := w.pdf.bytesWritten + stream.2 } }, stream.2)

/-- On a file that can be opened. -/
def dtPdfStart (width height dpi : Float32) (defaultEncoder : StreamEncoder) : Pdf :=
  let pdf : Pdf :=
    { file := [], nextId := 3, nextImage := 0, bytesWritten := 0, pageWidth := width,
      pageHeight := height, dpi := dpi, defaultEncoder := defaultEncoder, offsets := sys.memory }
  pdf.writing
    |>.fprintf (.text (ascii "%PDF-1.3\n" ++ [0xde, 0xad, 0xbe, 0xef] ++ ascii "\n"))
    |>.setOffset 1
    |>.fprintf (.object 1 (ascii "<<\n/Pages 2 0 R\n/Type /Catalog\n>>\nendobj\n"))
    |>.close

def lengthBody (streamSize : Nat) : Blob := decimal streamSize ++ ascii "\nendobj\n"

def dtPdfAddIccFromData (data : Blob) : Pdf × Nat :=
  let iccId := pdf.nextId
  let lengthId := pdf.nextId + 1
  let stream := pdfStreamEncoderAsciiHex data
  let w := { pdf with nextId := pdf.nextId + 2 }.writing
    |>.setOffset iccId
    |>.fprintf (.object iccId (ascii "<<\n/N 3\n/Alternate /DeviceRGB\n/Length "
        ++ decimal lengthId ++ ascii " 0 R\n/Filter [ /ASCIIHexDecode ]\n>>\nstream\n"))
    |>.fwrite stream.1
    |>.count stream.2
    |>.fprintf (.text (ascii "\nendstream\nendobj\n"))
    |>.setOffset lengthId
    |>.fprintf (.object lengthId (lengthBody stream.2))
  (w.close, iccId)

def imageHead (width height bpp : Nat) (iccId : Int) : Writing :=
  w.fprintf (.object pdf.nextId (ascii "<<\n/Type /XObject\n/Subtype /Image\n/Name /Im"
      ++ decimal pdf.nextImage ++ ascii "\n/Filter [ "
      ++ ascii (streamEncoderFilter pdf.defaultEncoder) ++ ascii " ]\n/Width " ++ decimal width
      ++ ascii "\n/Height " ++ decimal height ++ ascii "\n"))
    |>.fprintf (.text (if 0 < iccId then
          ascii "/ColorSpace [ /ICCBased " ++ decimalInt iccId ++ ascii " 0 R ]\n"
        else ascii "/ColorSpace /DeviceRGB\n"))
    |>.fprintf (.text (ascii "/BitsPerComponent " ++ decimal bpp
      ++ ascii "\n/Intent /Perceptual\n/Length " ++ decimal (pdf.nextId + 1)
      ++ ascii " 0 R\n>>\nstream\n"))

def dtPdfAddImage (image : Option Blob) (width height bpp : Nat) (iccId : Int) (border : Float32) :
    Pdf × Option PdfImage :=
  let pdfImage : PdfImage :=
    { width := width, height := height, outlineMode := image.isNone, bbX := border, bbY := border
      bbWidth := pdf.pageWidth - 2 * border, bbHeight := pdf.pageHeight - 2 * border }
  match image with
  -- just draw outlines if the image is missing
  | none => (pdf, some pdfImage)
  | some data =>
      let objectId := pdf.nextId
      let lengthId := pdf.nextId + 1
      let pdf' := { pdf with nextId := pdf.nextId + 2, nextImage := pdf.nextImage + 1 }
      let head := imageHead (pdf'.writing.setOffset objectId) pdf width height bpp iccId
      let stream := pdfWriteStream sys head pdf.defaultEncoder
        (data.take (width * height * 3 * (bpp / 8)))
      if stream.2 = 0 then (stream.1.pdf, none)
      else
        let w := stream.1.count stream.2
          |>.fprintf (.text (ascii "\nendstream\nendobj\n"))
          |>.setOffset lengthId
          |>.fprintf (.object lengthId (lengthBody stream.2))
        (w.close, some { pdfImage with
          objectId := objectId, nameId := pdf.nextImage, size := w.bytesWritten })

structure Placement where
  rotate : Bool
  scaleX : Float32
  scaleY : Float32
  translateX : Float32
  translateY : Float32

-- "fit the image into the bounding box that comes with the image".
def placement (image : PdfImage) : Placement :=
  let portraitPage : Bool := pdf.pageWidth < pdf.pageHeight
  let portraitImage : Bool := image.width < image.height
  let rotate := image.rotateToFit && portraitPage != portraitImage
  let width := Float32.ofNat (if rotate then image.height else image.width)
  let height := Float32.ofNat (if rotate then image.width else image.height)
  let imageAspectRatio := width / height
  let bbAspectRatio := image.bbWidth / image.bbHeight
  let scale : Float32 × Float32 :=
    if imageAspectRatio ≤ bbAspectRatio then
      let heightInPoint := ((height / pdf.dpi).toFloat * 72.0).toFloat32
      let scaleY := if image.bbHeight < heightInPoint then image.bbHeight else heightInPoint
      (scaleY * imageAspectRatio, scaleY)
    else
      let widthInPoint := ((width / pdf.dpi).toFloat * 72.0).toFloat32
      let scaleX := if image.bbWidth < widthInPoint then image.bbWidth else widthInPoint
      (scaleX, scaleX / imageAspectRatio)
  let translateX := (image.bbX.toFloat + 0.5 * (image.bbWidth - scale.1).toFloat).toFloat32
  let translateY := (image.bbY.toFloat + 0.5 * (image.bbHeight - scale.2).toFloat).toFloat32
  if rotate && !image.outlineMode then
    { rotate := rotate, scaleX := scale.2, scaleY := scale.1,
      translateX := translateX + scale.1, translateY := translateY }
  else
    { rotate := rotate, scaleX := scale.1, scaleY := scale.2,
      translateX := translateX, translateY := translateY }

def pageContent (image : PdfImage) : Blob :=
  let place := placement pdf image
  let number (x : Float32) : Blob := sys.dtostr x.toFloat
  (if image.outlineMode then
      ascii "q\n[4 6] 0 d\n" ++ number place.translateX ++ ascii " " ++ number place.translateY
        ++ ascii " " ++ number place.scaleX ++ ascii " " ++ number place.scaleY
        ++ ascii " re\nS\nQ\n"
    else
      ascii "q\n1 0 0 1 " ++ number place.translateX ++ ascii " " ++ number place.translateY
        ++ ascii " cm\n" ++ (if place.rotate then ascii "0 1 -1 0 0 0 cm\n" else [])
        ++ number place.scaleX ++ ascii " 0 0 " ++ number place.scaleY ++ ascii " 0 0 cm\n/Im"
        ++ decimal image.nameId ++ ascii " Do\nQ\n")
    ++ (if image.showBb then
      ascii "q\n" ++ number image.bbX ++ ascii " " ++ number image.bbY ++ ascii " "
        ++ number image.bbWidth ++ ascii " " ++ number image.bbHeight ++ ascii " re\nS\nQ\n"
    else [])

-- `(int)(x + 0.5)`.
def roundedSize (x : Float32) : Int := (x.toFloat + 0.5).toInt32.toInt

def dtPdfAddPage (images : List PdfImage) : Pdf × PdfPage :=
  let objectId := pdf.nextId
  let contentId := pdf.nextId + 1
  let lengthId := pdf.nextId + 2
  let stream := images.flatMap (pageContent sys pdf)
  let w := { pdf with nextId := pdf.nextId + 3 }.writing
    |>.setOffset objectId
    |>.fprintf (.object objectId
        (ascii "<<\n/Type /Page\n/Parent 2 0 R\n/Resources <<\n/XObject <<"))
    |>.fprintf (.text (images.flatMap fun (image : PdfImage) => ascii "/Im"
        ++ decimal image.nameId ++ ascii " " ++ decimal image.objectId ++ ascii " 0 R\n"))
    |>.fprintf (.text (ascii ">>\n/ProcSet [ /PDF /Text /ImageC ] >>\n/MediaBox [0 0 "
        ++ decimalInt (roundedSize pdf.pageWidth) ++ ascii " "
        ++ decimalInt (roundedSize pdf.pageHeight) ++ ascii "]\n/Contents " ++ decimal contentId
        ++ ascii " 0 R\n>>\nendobj\n"))
    |>.setOffset contentId
    |>.fprintf (.object contentId (ascii "<<\n/Length " ++ decimal lengthId
        ++ ascii " 0 R\n>>\nstream\n"))
    |>.fwrite stream
    |>.fprintf (.text (ascii "endstream\nendobj\n"))
    |>.count stream.length
    |>.setOffset lengthId
    |>.fprintf (.object lengthId (lengthBody stream.length))
  (w.close, { objectId := objectId, size := w.bytesWritten })

-- The pages dictionary, which is object 2, "even if written in the end", and the info.
def writePagesAndInfo (pages : List PdfPage) : Pdf :=
  let infoId := pdf.nextId
  { pdf with nextId := pdf.nextId + 1 }.writing
    |>.setOffset 2
    |>.fprintf (.object 2 (ascii "<<\n/Type /Pages\n/Kids [\n"))
    |>.fprintf (.text (pages.flatMap fun (page : PdfPage) =>
        decimal page.objectId ++ ascii " 0 R\n"))
    |>.fprintf (.text (ascii "]\n/Count " ++ decimal pages.length ++ ascii "\n>>\nendobj\n"))
    |>.setOffset infoId
    |>.fprintf (.object infoId (ascii "<<\n/Title (" ++ sys.title.getD (ascii "untitled")
        ++ ascii ")\n"))
    |>.fprintf (.text (if sys.timeStr = [] then [] else
        ascii "/CreationDate (" ++ sys.timeStr ++ ascii ")\n/ModDate (" ++ sys.timeStr
          ++ ascii ")\n"))
    |>.fprintf (.text (ascii "/Producer (" ++ sys.packageString
        ++ ascii " https://www.darktable.org)\n>>\nendobj\n"))
    |>.close

def xrefSection (nextId start : Nat) (offsets : List Nat) (trailer : Blob) : List PdfPiece :=
  .xref nextId :: (offsets.map .entry ++ [.text trailer, .startxref start])

/-- The finished file. -/
def dtPdfFinish (pages : List PdfPage) : List PdfPiece :=
  let infoId := pdf.nextId
  let pdf := writePagesAndInfo sys pdf pages
  pdf.file ++ xrefSection pdf.nextId pdf.bytesWritten
    ((List.range (pdf.nextId - 1)).map fun i => pdf.offsets (i + 1))
    (ascii "trailer\n<<\n/Size " ++ decimal pdf.nextId ++ ascii "\n/Info " ++ decimal infoId
      ++ ascii " 0 R\n/Root 1 0 R\n/ID [<dead> <babe>]\n>>\n")

-- The calls between `dt_pdf_start` and `dt_pdf_finish`.
inductive PdfCall
  | addIcc (data : Blob)
  | addImage (image : Option Blob) (width height bpp : Nat) (iccId : Int) (border : Float32)
  | addPage (images : List PdfImage)

def PdfCall.run : PdfCall → Pdf
  | addIcc data => (dtPdfAddIccFromData pdf data).1
  | addImage image width height bpp iccId border =>
      (dtPdfAddImage sys pdf image width height bpp iccId border).1
  | addPage images => (dtPdfAddPage sys pdf images).1

def PdfCall.writesImage : PdfCall → Bool
  | addImage image .. => image.isSome
  | _ => false

def pdfFile (width height dpi : Float32) (encoder : StreamEncoder) (calls : List PdfCall)
    (pages : List PdfPage) : List PdfPiece :=
  dtPdfFinish sys (calls.foldl (PdfCall.run sys) (dtPdfStart sys width height dpi encoder)) pages

end DTLite
