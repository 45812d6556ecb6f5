import DTLite.Common.IopOrderTable

/-! The hashes of an image's history in `main.history_hash`. MD5 is the parameter `md5`. -/

namespace DTLite

-- The bytes of a text up to a zero, which ends it.
def textBytes (text : String) : Blob := text.toUTF8.data.toList.takeWhile (· ≠ 0)

-- The four bytes of an `int`, lowest first.
def intBytes (n : Int) : Blob :=
  let word := (n % 4294967296).toNat
  [word, word / 256, word / 65536, word / 16777216].map UInt8.ofNat

variable (md5 : Blob → Blob) (db : Database) (imgid : ImgId)

-- `WHERE imgid = ? AND enabled = 1 AND num <= history_end ORDER BY num`.
def hashedRows : List HistoryRow :=
  (db.historyByNum imgid).filter fun row =>
    row.enabled == some 1 && row.num.any (· ≤ columnInt (db.historyEnd imgid))

def rowBytes (row : HistoryRow) : Blob :=
  (row.operation.map textBytes).getD [] ++ row.opParams.getD [] ++ row.blendopParams.getD []

def orderBytes : Option ModuleOrder → Blob
  | none => []
  | some row =>
      intBytes (columnInt row.version)
        ++ if columnInt row.version = iopOrderCustom then
            (row.iopList.map fun text => textBytes (String.ofList text)).getD []
          else []

def hashedBytes : Blob :=
  (hashedRows db imgid).flatMap rowBytes ++ orderBytes (db.moduleOrder imgid)

/-- No hash if no row is hashed. -/
def historyHashComputeFromDb : Option Blob :=
  if hashedRows db imgid = [] then none else some (md5 (hashedBytes db imgid))

-- `dt_history_hash_t`, as a bit set.
structure HashFlags where
  basic : Bool := false
  auto : Bool := false
  current : Bool := false
deriving DecidableEq, Repr

def HistoryHash.write (row : HistoryHash) (flags : HashFlags) (hash : Blob) : HistoryHash :=
  { row with
    basicHash := if flags.basic then some hash else row.basicHash
    autoHash := if flags.auto then some hash else row.autoHash
    currentHash := if flags.current then some hash else row.currentHash }

variable (flags : HashFlags)

def dtHistoryHashWriteFromHistory : Database :=
  match historyHashComputeFromDb md5 db imgid with
  | none => db
  | some hash =>
      if flags = {} then db
      else
        { db with
          historyHash := Function.update db.historyHash imgid
            (some (((db.historyHash imgid).getD {}).write flags hash)) }

theorem hashWrite_of_none {md5 : Blob → Blob} {db : Database} {imgid : ImgId}
    (h : historyHashComputeFromDb md5 db imgid = none) (flags : HashFlags) :
    dtHistoryHashWriteFromHistory md5 db imgid flags = db := by
  rw [dtHistoryHashWriteFromHistory, h]

theorem historyHash_hashWrite {md5 : Blob → Blob} {db : Database} {imgid : ImgId} {hash : Blob}
    (h : historyHashComputeFromDb md5 db imgid = some hash) {flags : HashFlags}
    (hflags : flags ≠ {}) :
    (dtHistoryHashWriteFromHistory md5 db imgid flags).historyHash imgid =
      some (((db.historyHash imgid).getD {}).write flags hash) := by
  rw [dtHistoryHashWriteFromHistory, h]
  show (if _ then _ else _ : Database).historyHash imgid = _
  rw [if_neg hflags]
  exact Function.update_self ..

theorem dtHistoryHashWriteFromHistory_eq :
    ∃ hashes, dtHistoryHashWriteFromHistory md5 db imgid flags =
      { db with historyHash := hashes } := by
  unfold dtHistoryHashWriteFromHistory
  split
  · exact ⟨db.historyHash, rfl⟩
  · split
    · exact ⟨db.historyHash, rfl⟩
    · exact ⟨_, rfl⟩

theorem sameEdit_hashWrite (j : ImgId) :
    (dtHistoryHashWriteFromHistory md5 db imgid flags).SameEdit db j := by
  obtain ⟨hashes, heq⟩ := dtHistoryHashWriteFromHistory_eq md5 db imgid flags
  rw [heq]
  exact ⟨rfl, rfl, rfl, rfl⟩

/-- The whole row is replaced. -/
def dtHistoryHashWrite (basic auto current : Option Blob) : Database :=
  if basic.isSome || auto.isSome || current.isSome then
    { db with
      historyHash := Function.update db.historyHash imgid
        (some { basicHash := basic, autoHash := auto, currentHash := current }) }
  else db

theorem sameEdit_dtHistoryHashWrite (basic auto current : Option Blob) (j : ImgId) :
    (dtHistoryHashWrite db imgid basic auto current).SameEdit db j := by
  rw [dtHistoryHashWrite]
  split
  · exact ⟨rfl, rfl, rfl, rfl⟩
  · exact Database.SameEdit.refl db j

-- `a == b`, not true if one of them is `NULL`.
def sameBlob (a b : Option Blob) : Bool := a.isSome && a == b

-- `a != b`, not true if one of them is `NULL`.
def otherBlob (a b : Option Blob) : Bool := a.isSome && b.isSome && a != b

def dtHistoryHashIsMipmapSynced : Bool :=
  (db.historyHash imgid).any fun row => sameBlob row.mipmapHash row.currentHash

def dtHistoryHashSetMipmap : Database :=
  { db with
    historyHash := Function.update db.historyHash imgid
      ((db.historyHash imgid).map fun row => { row with mipmapHash := row.currentHash }) }

def dtHistoryHashGetStatus : HashFlags :=
  match db.historyHash imgid with
  | none => { basic := true }
  | some row =>
      if sameBlob row.basicHash row.currentHash then { basic := true }
      else if sameBlob row.autoHash row.currentHash then { auto := true }
      else if (row.basicHash.isNone || otherBlob row.currentHash row.basicHash)
          && (row.autoHash.isNone || otherBlob row.currentHash row.autoHash) then
        { current := true }
      else { basic := true }

end DTLite
