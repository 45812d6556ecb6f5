import DTLite.Common.HistorySnapshot
import DTLite.Reasoning.PrefixCode
import DTLite.Reasoning.Runs

/-!
# Thumbnails and the hash of the history

`dt_history_hash_set_mipmap` keeps the current hash for the thumbnail that was made, and
`dt_history_hash_is_mipmap_synced` tells whether the hash is still the same. What the hash covers
decides whether the edit is still the same then.
-/

namespace DTLite

open Reasoning Database List Option

structure HashItem where
  operation : Option String
  opParams : Option Blob
  blendopParams : Option Blob
  multiPriority : Option Int
deriving DecidableEq, Repr

def HistoryRow.item (row : HistoryRow) : HashItem :=
  ⟨row.operation, row.opParams, row.blendopParams, row.multiPriority⟩

structure EditView where
  items : List HashItem
  order : Option ModuleOrder
deriving DecidableEq, Repr

def editView (db : Database) (imgid : ImgId) : EditView where
  items := ((db.historyByNum imgid).filter fun row =>
    row.enabled == some 1 && numBelow row.num (columnInt (db.historyEnd imgid))).map
      HistoryRow.item
  order := db.moduleOrder imgid

theorem editView_congr {db db' : Database} {imgid : ImgId} (h : db.SameEdit db' imgid) :
    editView db imgid = editView db' imgid := by
  rw [editView, editView, historyByNum, historyByNum, h.history, h.historyEnd, h.moduleOrder]

-- A run on one image: the database, and the edit at the last `dt_history_hash_set_mipmap`.
structure HashRun where
  db : Database
  thumbnail : Option EditView

/-- What happens to an image. `change` brings any other content of the tables, and the current hash
is written after it. -/
inductive HashEvent where
  | change (edited : Database)
  | deleteHistory
  | setMipmap

def hashStep (md5 : Blob → Blob) (imgid : ImgId) (s : HashRun) : HashEvent → HashRun
  | .change edited =>
      { s with
        db := dtHistoryHashWriteFromHistory md5 { edited with historyHash := s.db.historyHash }
          imgid { current := true } }
  | .deleteHistory => { s with db := deleteOnImage md5 {} imgid s.db }
  | .setMipmap =>
      { db := dtHistoryHashSetMipmap s.db imgid
        thumbnail := some (editView s.db imgid) }

def ThumbnailSound (imgid : ImgId) (s : HashRun) : Prop :=
  dtHistoryHashIsMipmapSynced s.db imgid = true → s.thumbnail = some (editView s.db imgid)

def itemBytes (item : HashItem) : Blob :=
  (item.operation.map textBytes).getD [] ++ item.opParams.getD [] ++ item.blendopParams.getD []

def EditView.bytes (v : EditView) : Blob := v.items.flatMap itemBytes ++ orderBytes v.order

-- An order that the program knows by its version, with a list of its own exactly if it is custom.
def OrderFits : Option ModuleOrder → Prop
  | none => True
  | some order =>
      (order.version = some 0 ∨ order.version = some 1 ∨ order.version = some 2) ∧
        (order.version = some iopOrderCustom ↔ order.iopList.isSome) ∧
        ∀ text ∈ order.iopList, 0 ∉ (String.ofList text).toUTF8.data.toList

instance decidableOrderFits : (order : Option ModuleOrder) → Decidable (OrderFits order)
  | none => isTrue trivial
  | some _ => inferInstanceAs (Decidable (_ ∧ _ ∧ ∀ text ∈ _, _))

/-- Items that can be told apart in the hashed bytes: none begins like another one, nor like an
order. -/
structure HashCode (S : HashItem → Prop) : Prop where
  free : PrefixFree itemBytes S
  first : ∀ item, S item → ∃ byte rest, itemBytes item = byte :: rest ∧ 3 ≤ byte

def EditView.Fits (S : HashItem → Prop) (v : EditView) : Prop :=
  (∀ item ∈ v.items, S item) ∧ OrderFits v.order

theorem textBytes_inj {text text' : Text} (h : 0 ∉ (String.ofList text).toUTF8.data.toList)
    (h' : 0 ∉ (String.ofList text').toUTF8.data.toList)
    (heq : textBytes (String.ofList text) = textBytes (String.ofList text')) : text = text' := by
  have hwhole : ∀ bytes : Blob, 0 ∉ bytes → bytes.takeWhile (· ≠ 0) = bytes := by
    intro bytes hbytes
    rw [takeWhile_eq_self_iff]
    intro byte hbyte
    exact decide_eq_true fun hzero => hbytes (hzero ▸ hbyte)
  rw [textBytes, textBytes, hwhole _ h, hwhole _ h'] at heq
  have hstring := String.toByteArray_inj.mp (ByteArray.ext (Array.toList_inj.mp heq))
  rw [← String.toList_ofList (l := text), hstring, String.toList_ofList]

theorem intBytes_version {v : Option Int} (hv : v = some 0 ∨ v = some 1 ∨ v = some 2) :
    ∃ byte < 3, intBytes (columnInt v) = [byte, 0, 0, 0] ∧ v = some (byte.toNat : Int) := by
  rcases hv with rfl | rfl | rfl
  · exact ⟨0, by decide, by decide, by decide⟩
  · exact ⟨1, by decide, by decide, by decide⟩
  · exact ⟨2, by decide, by decide, by decide⟩

theorem orderBytes_first {order : Option ModuleOrder} (h : OrderFits order) {byte : UInt8}
    {rest : Blob} (heq : orderBytes order = byte :: rest) : byte < 3 := by
  cases order with
  | none => cases heq
  | some order =>
    obtain ⟨first, hfirst, hbytes, -⟩ := intBytes_version h.1
    rw [orderBytes, hbytes] at heq
    exact (cons.inj heq).1 ▸ hfirst

theorem orderBytes_inj {order order' : Option ModuleOrder} (h : OrderFits order)
    (h' : OrderFits order') (heq : orderBytes order = orderBytes order') : order = order' := by
  cases order with
  | none =>
    cases order' with
    | none => rfl
    | some order' =>
      cases heq
  | some order =>
    obtain ⟨first, -, hbytes, hversion⟩ := intBytes_version h.1
    cases order' with
    | none =>
      cases heq
    | some order' =>
      obtain ⟨first', -, hbytes', hversion'⟩ := intBytes_version h'.1
      rw [orderBytes, orderBytes, hbytes, hbytes'] at heq
      obtain ⟨hfirst, hlist⟩ := append_inj heq rfl
      have hsame : order.version = order'.version := by
        rw [hversion, hversion', (cons.inj hfirst).1]
      have hlists : order.iopList = order'.iopList := by
        by_cases hcustom : order.version = some iopOrderCustom
        · have hcustom' := hsame.symm.trans hcustom
          obtain ⟨text, htext⟩ := isSome_iff_exists.mp (h.2.1.mp hcustom)
          obtain ⟨text', htext'⟩ := isSome_iff_exists.mp (h'.2.1.mp hcustom')
          rw [hcustom, hcustom', htext, htext'] at hlist
          rw [htext, htext', textBytes_inj (h.2.2 text htext) (h'.2.2 text' htext') hlist]
        · have hcustom' := fun hc => hcustom (hsame.trans hc)
          rw [not_isSome_iff_eq_none.mp (mt h.2.1.mpr hcustom),
            not_isSome_iff_eq_none.mp (mt h'.2.1.mpr hcustom')]
      rw [some.injEq, ModuleOrder.mk.injEq]
      exact ⟨hsame, hlists⟩

theorem HashCode.bytes_inj {S : HashItem → Prop} (hS : HashCode S) {v v' : EditView}
    (hv : v.Fits S) (hv' : v'.Fits S) (heq : v.bytes = v'.bytes) : v = v' := by
  have hrest : ∀ order, OrderFits order → ∀ item, S item →
      ¬ itemBytes item <+: orderBytes order := by
    rintro order horder item hitem ⟨rest, hrest⟩
    obtain ⟨byte, bytes, hbytes, hbyte⟩ := hS.first item hitem
    rw [hbytes] at hrest
    exact absurd (orderBytes_first horder hrest.symm) (UInt8.not_lt.mpr hbyte)
  obtain ⟨hitems, horders⟩ :=
    hS.free.flatMap_append_inj hv.1 hv'.1 (hrest _ hv.2) (hrest _ hv'.2) heq
  rw [EditView.mk.injEq]
  exact ⟨hitems, orderBytes_inj hv.2 hv'.2 horders⟩

-- The edit's items are in `S`, the hash covers its order, and no enabled row is just above the
-- active ones, which `num <= history_end` would hash too.
structure Hashable (S : HashItem → Prop) (db : Database) (imgid : ImgId) : Prop where
  fits : (editView db imgid).Fits S
  endFree : ∀ row ∈ db.historyOf imgid, row.enabled = some 1 →
    row.num ≠ some (columnInt (db.historyEnd imgid))

instance decidableHashable (S : HashItem → Prop) [DecidablePred S] (db : Database)
    (imgid : ImgId) : Decidable (Hashable S db imgid) :=
  decidable_of_iff (((∀ item ∈ (editView db imgid).items, S item) ∧
      OrderFits (editView db imgid).order) ∧
      ∀ row ∈ db.historyOf imgid, row.enabled = some 1 →
        row.num ≠ some (columnInt (db.historyEnd imgid)))
    ⟨fun h => ⟨h.1, h.2⟩, fun h => ⟨h.1, h.2⟩⟩

def currentHash (db : Database) (imgid : ImgId) : Option Blob :=
  (db.historyHash imgid).bind HistoryHash.currentHash

/-- The condition on the changes of a run. Without an active enabled row no hash is written, so an
old one must not be there. -/
def ChangeHashable (S : HashItem → Prop) (imgid : ImgId) (s : HashRun) : HashEvent → Prop
  | .change edited => Hashable S edited imgid ∧
      ((editView edited imgid).items = [] → currentHash s.db imgid = none)
  | .deleteHistory => True
  | .setMipmap => True

instance decidableChangeHashable (S : HashItem → Prop) [DecidablePred S] (imgid : ImgId)
    (s : HashRun) : (event : HashEvent) → Decidable (ChangeHashable S imgid s event)
  | .change _ => inferInstanceAs (Decidable (_ ∧ (_ → _)))
  | .deleteHistory => isTrue trivial
  | .setMipmap => isTrue trivial

section Hashable

variable {S : HashItem → Prop} {db : Database} {imgid : ImgId}

section

variable (h : Hashable S db imgid)
include h

theorem Hashable.items_eq :
    (hashedRows db imgid).map HistoryRow.item = (editView db imgid).items := by
  congr 1
  refine filter_congr fun row hrow => ?_
  rw [historyByNum, (orderByNum_perm HistoryRow.num _).mem_iff] at hrow
  cases hnum : row.num with
  | none => rfl
  | some n =>
    cases henabled : row.enabled == some 1 with
    | false => rfl
    | true =>
      have hne : n ≠ columnInt (db.historyEnd imgid) := fun heq =>
        h.endFree row hrow (beq_iff_eq.mp henabled) (hnum.trans (congrArg some heq))
      show decide (n ≤ _) = decide (n < _)
      rw [decide_eq_decide]
      omega

theorem Hashable.hashedBytes_eq : hashedBytes db imgid = (editView db imgid).bytes := by
  rw [EditView.bytes, ← h.items_eq, flatMap_map]
  rfl

theorem Hashable.compute_eq (md5 : Blob → Blob) :
    historyHashComputeFromDb md5 db imgid =
      if (editView db imgid).items = [] then none else some (md5 (editView db imgid).bytes) := by
  rw [historyHashComputeFromDb, h.hashedBytes_eq, ← h.items_eq]
  simp

end

end Hashable

-- Both hashes are of edits that fit: the current one of the present edit, the other one of the
-- edit that the thumbnail shows.
structure HashRun.Inv (md5 : Blob → Blob) (S : HashItem → Prop) (imgid : ImgId) (s : HashRun) :
    Prop where
  current : ∀ hash, currentHash s.db imgid = some hash →
    hash = md5 (editView s.db imgid).bytes ∧ (editView s.db imgid).Fits S
  mipmap : ∀ hash, (s.db.historyHash imgid).bind HistoryHash.mipmapHash = some hash →
    ∃ v, s.thumbnail = some v ∧ hash = md5 v.bytes ∧ v.Fits S

theorem deleteOnImage_historyHash (md5 : Blob → Blob) (imgid : ImgId) (db : Database) :
    (deleteOnImage md5 {} imgid db).historyHash imgid = none := by
  set deleted := removePresetFlag imgid (deleteHistoryHash imgid (((deleteModuleOrder imgid
    (db.deleteHistory imgid)).resetImage imgid).deleteMasks imgid)) with hdeleted
  have hrows : deleted.historyOf imgid = [] := db.historyOf_deleteHistory imgid
  -- no row is left to hash, so the row of the hash is not written again
  have hcompute : historyHashComputeFromDb md5 deleted imgid = none := by
    rw [historyHashComputeFromDb, hashedRows, historyByNum, hrows]
    rfl
  show (dtHistoryHashWriteFromHistory md5 deleted imgid _).historyHash imgid = none
  rw [hashWrite_of_none hcompute]
  exact Function.update_self ..

section Inv

variable {md5 : Blob → Blob} {S : HashItem → Prop} {imgid : ImgId} {s : HashRun}

theorem HashRun.Inv.sound (hmd5 : Function.Injective md5) (hS : HashCode S)
    (h : s.Inv md5 S imgid) : ThumbnailSound imgid s := by
  intro hsynced
  rw [dtHistoryHashIsMipmapSynced] at hsynced
  cases hrow : s.db.historyHash imgid with
  | none =>
    rw [hrow] at hsynced
    cases hsynced
  | some row =>
    rw [hrow] at hsynced
    have hsame : row.mipmapHash.isSome ∧ row.mipmapHash = row.currentHash := by
      simpa [sameBlob] using hsynced
    obtain ⟨hash, hmipmap⟩ := isSome_iff_exists.mp hsame.1
    have hcurrent : currentHash s.db imgid = some hash := by
      rw [currentHash, hrow]
      exact hsame.2.symm.trans hmipmap
    obtain ⟨hnow, hfits⟩ := h.current hash hcurrent
    obtain ⟨v, hthumbnail, hthen, hvfits⟩ := h.mipmap hash (by rw [hrow]; exact hmipmap)
    rw [hthumbnail, hS.bytes_inj hvfits hfits (hmd5 (hthen.symm.trans hnow))]

theorem HashRun.Inv.setMipmap (h : s.Inv md5 S imgid) :
    (hashStep md5 imgid s .setMipmap).Inv md5 S imgid := by
  have hhash : (dtHistoryHashSetMipmap s.db imgid).historyHash imgid =
      (s.db.historyHash imgid).map fun row => { row with mipmapHash := row.currentHash } :=
    Function.update_self ..
  have hcurrent : currentHash (dtHistoryHashSetMipmap s.db imgid) imgid =
      currentHash s.db imgid := by
    rw [currentHash, hhash, currentHash]
    cases s.db.historyHash imgid <;> rfl
  constructor
  · intro hash hhash
    exact h.current hash (hcurrent.symm.trans hhash)
  · intro hash hmipmap
    have hkept : currentHash s.db imgid = some hash := by
      rw [currentHash, ← hmipmap]
      show _ = ((dtHistoryHashSetMipmap s.db imgid).historyHash imgid).bind _
      rw [hhash]
      cases s.db.historyHash imgid <;> rfl
    exact ⟨_, rfl, h.current hash hkept⟩

theorem HashRun.Inv.deleteHistory : (hashStep md5 imgid s .deleteHistory).Inv md5 S imgid := by
  have hnone : (hashStep md5 imgid s .deleteHistory).db.historyHash imgid = none :=
    deleteOnImage_historyHash md5 imgid s.db
  constructor
  · intro hash hhash
    rw [currentHash, hnone] at hhash
    cases hhash
  · intro hash hhash
    rw [hnone] at hhash
    cases hhash

theorem HashRun.Inv.change (h : s.Inv md5 S imgid) {edited : Database}
    (hedited : ChangeHashable S imgid s (.change edited)) :
    (hashStep md5 imgid s (.change edited)).Inv md5 S imgid := by
  obtain ⟨⟨hfits, hfree⟩, hold⟩ := hedited
  set changed : Database := { edited with historyHash := s.db.historyHash } with hchanged
  have hcompute : historyHashComputeFromDb md5 changed imgid =
      if (editView changed imgid).items = [] then none
      else some (md5 (editView changed imgid).bytes) :=
    Hashable.compute_eq ⟨hfits, hfree⟩ md5
  set written := dtHistoryHashWriteFromHistory md5 changed imgid { current := true } with hwritten
  show HashRun.Inv md5 S imgid ⟨written, s.thumbnail⟩
  by_cases hitems : (editView changed imgid).items = []
  · rw [hwritten, hashWrite_of_none (hcompute.trans (if_pos hitems))]
    exact ⟨fun hash hhash => absurd ((hold hitems).symm.trans hhash) (by simp), h.mipmap⟩
  · have hview : editView written imgid = editView changed imgid :=
      editView_congr (sameEdit_hashWrite ..)
    have hrow : written.historyHash imgid = some (((s.db.historyHash imgid).getD {}).write
        { current := true } (md5 (editView changed imgid).bytes)) :=
      historyHash_hashWrite (hcompute.trans (if_neg hitems)) (by decide)
    constructor
    · intro hash hhash
      rw [currentHash, hrow] at hhash
      rw [hview]
      exact ⟨(some.inj hhash).symm, hfits⟩
    · intro hash hhash
      rw [hrow] at hhash
      apply h.mipmap hash
      rw [← hhash]
      cases s.db.historyHash imgid <;> rfl

end Inv

-- The one instance of a module, with the sizes of its params and blend params.
structure IopLayout where
  op : String
  paramsSize : Nat
  blendSize : Nat
  multiPriority : Int
deriving DecidableEq, Repr

/-- Modules that the hash tells apart: no name is the beginning of another one. -/
structure IopLayouts where
  layouts : List IopLayout
  namesFree : ∀ a ∈ layouts, ∀ b ∈ layouts, textBytes a.op <+: textBytes b.op → a = b
  firstByte : ∀ a ∈ layouts, (textBytes a.op).head?.any (3 ≤ ·) = true

def IopLayouts.Fits (L : IopLayouts) (item : HashItem) : Prop :=
  ∃ l ∈ L.layouts, item.operation = some l.op ∧
    item.opParams.map List.length = some l.paramsSize ∧
    item.blendopParams.map List.length = some l.blendSize ∧
    item.multiPriority = some l.multiPriority

instance decidableLayoutFits (L : IopLayouts) : DecidablePred L.Fits :=
  fun _ => inferInstanceAs (Decidable (∃ l ∈ L.layouts, _))

theorem IopLayouts.Fits.exists_bytes {L : IopLayouts} {item : HashItem} (h : L.Fits item) :
    ∃ l ∈ L.layouts, ∃ params blend, item =
      ⟨some l.op, some params, some blend, some l.multiPriority⟩ ∧
      params.length = l.paramsSize ∧ blend.length = l.blendSize := by
  obtain ⟨l, hl, hop, hparams, hblend, hpriority⟩ := h
  obtain ⟨params, hparams, hsize⟩ := map_eq_some_iff.mp hparams
  obtain ⟨blend, hblend, hsize'⟩ := map_eq_some_iff.mp hblend
  refine ⟨l, hl, params, blend, ?_, hsize, hsize'⟩
  rw [← hop, ← hparams, ← hblend, ← hpriority]

theorem IopLayouts.hashCode (L : IopLayouts) : HashCode L.Fits := by
  have hsame : ∀ a ∈ L.layouts, ∀ b ∈ L.layouts, textBytes a.op = textBytes b.op → a = b :=
    fun a ha b hb heq => L.namesFree a ha b hb (heq ▸ prefix_refl _)
  constructor
  · refine prefixFree_of_head (fun item => (item.operation.map textBytes).getD [])
      (fun item => item.opParams.getD [] ++ item.blendopParams.getD [])
      (fun item => append_assoc ..) ?_ ?_ ?_
    · rintro _ _ ha hb hfirst
      obtain ⟨l, hl, _, _, rfl, -, -⟩ := ha.exists_bytes
      obtain ⟨l', hl', _, _, rfl, -, -⟩ := hb.exists_bytes
      rw [L.namesFree l hl l' hl' hfirst]
    · rintro _ _ ha hb heq
      obtain ⟨l, hl, params, blend, rfl, hp, hq⟩ := ha.exists_bytes
      obtain ⟨l', hl', params', blend', rfl, hp', hq'⟩ := hb.exists_bytes
      have hll := hsame l hl l' hl' heq
      subst hll
      show (params ++ blend).length = (params' ++ blend').length
      rw [length_append, length_append]
      omega
    · rintro _ _ ha hb heq htail
      obtain ⟨l, hl, params, blend, rfl, hp, hq⟩ := ha.exists_bytes
      obtain ⟨l', hl', params', blend', rfl, hp', hq'⟩ := hb.exists_bytes
      have hll := hsame l hl l' hl' heq
      subst hll
      obtain ⟨rfl, rfl⟩ := append_inj htail (hp.trans hp'.symm)
      rfl
  · intro item hitem
    obtain ⟨l, hl, params, blend, rfl, -, -⟩ := hitem.exists_bytes
    have hfirst := L.firstByte l hl
    cases hname : textBytes l.op with
    | nil =>
      rw [hname] at hfirst
      cases hfirst
    | cons byte rest =>
      rw [hname] at hfirst
      refine ⟨byte, rest ++ params ++ blend, ?_, of_decide_eq_true hfirst⟩
      show textBytes l.op ++ params ++ blend = _
      rw [hname]
      rfl

/-- Along a run from an image that has no hash yet, with the condition met by every change, a
thumbnail that is reported to be in sync shows the present edit. -/
theorem mipmapSynced_sound (md5 : Blob → Blob) (hmd5 : Function.Injective md5)
    (S : HashItem → Prop) (hS : HashCode S) (imgid : ImgId) (db : Database)
    (hdb : db.historyHash imgid = none) (events : List HashEvent)
    (hevents : AllSteps (hashStep md5 imgid) (ChangeHashable S imgid) ⟨db, none⟩ events) :
    AllStates (hashStep md5 imgid) (ThumbnailSound imgid) ⟨db, none⟩ events := by
  have hstart : HashRun.Inv md5 S imgid ⟨db, none⟩ := by
    constructor
    · intro hash hhash
      rw [currentHash, hdb] at hhash
      cases hhash
    · intro hash hhash
      rw [hdb] at hhash
      cases hhash
  have hinv : AllStates (hashStep md5 imgid) (HashRun.Inv md5 S imgid) ⟨db, none⟩ events := by
    apply allStates_of_allSteps _ hstart hevents
    intro s event hs hevent
    cases event with
    | change edited => exact hs.change hevent
    | deleteHistory => exact HashRun.Inv.deleteHistory
    | setMipmap => exact hs.setMipmap
  exact hinv.mono fun s hs => hs.sound hmd5 hS

def sampleLayouts : IopLayouts where
  layouts := [⟨"demosaic", 1, 1, 0⟩, ⟨"exposure", 1, 1, 0⟩]
  namesFree := by decide
  firstByte := by decide

-- an exposure is added after the thumbnail was made, and taken back
def sampleEvents : List HashEvent :=
  [.change (sampleDb 1 [sampleRow 0 "demosaic"]), .setMipmap,
    .change (sampleDb 2 [sampleRow 0 "demosaic", sampleRow 1 "exposure"]),
    .change (sampleDb 1 [sampleRow 0 "demosaic"])]

theorem mipmapSynced_sound_back :
    dtHistoryHashIsMipmapSynced (sampleEvents.foldl (hashStep id 1) ⟨sampleDb 0 [], none⟩).db 1 =
        true ∧
      AllStates (hashStep id 1) (ThumbnailSound 1) ⟨sampleDb 0 [], none⟩ sampleEvents :=
  ⟨by decide, mipmapSynced_sound id Function.injective_id sampleLayouts.Fits
    sampleLayouts.hashCode 1 (sampleDb 0 []) rfl sampleEvents (by decide)⟩

-- the second row is undone when the thumbnail is made, and active after that
def sampleRedo : List HashEvent :=
  [.change (sampleDb 1 [sampleRow 0 "demosaic", sampleRow 1 "exposure"]), .setMipmap,
    .change (sampleDb 2 [sampleRow 0 "demosaic", sampleRow 1 "exposure"])]

/-- The row at `history_end` is hashed though it is not active: redoing it changes the image and
not the hash. -/
theorem mipmapSynced_after_redo :
    dtHistoryHashIsMipmapSynced (sampleRedo.foldl (hashStep id 1) ⟨sampleDb 0 [], none⟩).db 1 =
        true ∧
      ¬ ThumbnailSound 1 (sampleRedo.foldl (hashStep id 1) ⟨sampleDb 0 [], none⟩) :=
  ⟨by decide, fun h => absurd (h (by decide)) (by decide)⟩

end DTLite
