import DTLite.Common.HistoryCompress

/-!
# A list of images with compressed histories

What compressing leaves of an image's history, when it leaves what it should, and that an image is
not touched by the compression of another one.
-/

namespace DTLite

open Reasoning Database List Option SameEdit

-- Numbered from 0 on and all active; every module but the mask manager has its last active
-- settings.
structure Compressed (before after : Database) (imgid : ImgId) : Prop where
  numbered : (numsOf (after.historyOf imgid)).Perm
    ((List.range (after.historyOf imgid).length).map fun i : Nat => some (i : Int))
  historyEnd : columnInt (after.historyEnd imgid) = (after.historyOf imgid).length
  lastActive : ∀ key : Option String × Option Int, key.1 ≠ some opMaskManager →
    lastSettings (after.historyOf imgid) (columnInt (after.historyEnd imgid)) key =
      lastSettings (before.historyOf imgid) (columnInt (before.historyEnd imgid)) key

variable {imgid : ImgId} {a b c : Database}

theorem Compressed.trans (h : Compressed a b imgid)
    (h' : Compressed b c imgid) : Compressed a c imgid :=
  ⟨h'.numbered, h'.historyEnd,
    fun key hkey => (h'.lastActive key hkey).trans (h.lastActive key hkey)⟩

theorem compressed_congr {before before' after after' : Database}
    (hbefore : before.SameEdit before' imgid) (hafter : after.SameEdit after' imgid) :
    Compressed before after imgid ↔ Compressed before' after' imgid := by
  constructor
  · rintro ⟨hnumbered, hend, hlast⟩
    rw [hafter.history] at hnumbered hend
    rw [hafter.historyEnd] at hend
    rw [hafter.history, hafter.historyEnd, hbefore.history, hbefore.historyEnd] at hlast
    exact ⟨hnumbered, hend, hlast⟩
  · rintro ⟨hnumbered, hend, hlast⟩
    rw [← hafter.history] at hnumbered hend
    rw [← hafter.historyEnd] at hend
    rw [← hafter.history, ← hafter.historyEnd, ← hbefore.history, ← hbefore.historyEnd] at hlast
    exact ⟨hnumbered, hend, hlast⟩

-- The rows that stay have numbers of their own, from 0 on, outside of the mask manager's slot, and
-- something is above slot 0: otherwise the renumbering is left out.
def KeepsNumbers (hasMasks : Bool) (rows : List HistoryRow) : Prop :=
  let left := rows.filter fun row => Stays rows row
  if hasMasks then
    left ≠ [] ∧ Numbered (numsOf left) ∧ (managerPosition rows = true → some 0 ∉ numsOf left)
  else left = [] ∨ (Numbered (numsOf left) ∧ ∃ num ∈ numsOf left, num ≠ some 0)

instance decidableKeepsNumbers (hasMasks : Bool) (rows : List HistoryRow) :
    Decidable (KeepsNumbers hasMasks rows) := by
  unfold KeepsNumbers
  infer_instance

/-- What an image's edit has to meet. With `history_end` at 0 the whole history is deleted. -/
def CompressKeeps (db : Database) (imgid : ImgId) : Prop :=
  if columnInt (db.historyEnd imgid) = 0 then
    ∀ row ∈ db.historyOf imgid, row.num.isSome → row.operation = some opMaskManager
  else KeepsNumbers (db.masksOf imgid ≠ []) (db.historyOf imgid)

instance decidableCompressKeeps (db : Database) (imgid : ImgId) :
    Decidable (CompressKeeps db imgid) := by
  unfold CompressKeeps
  infer_instance

theorem compressKeeps_congr {db db' : Database} (h : db.SameEdit db' imgid) :
    CompressKeeps db imgid ↔ CompressKeeps db' imgid := by
  rw [CompressKeeps, CompressKeeps, h.history, h.historyEnd, h.masks]

theorem exists_pos_iff {nums : List (Option Int)} (h : Numbered (nums ++ [some 0])) :
    (∃ n, some n ∈ nums ++ [some 0] ∧ 0 < n) ↔ nums ≠ [] := by
  obtain ⟨hnumbered, hzero⟩ := numbered_append_zero_iff.mp h
  constructor
  · rintro ⟨n, hmem, hpos⟩ rfl
    rw [nil_append, mem_singleton] at hmem
    have hn := some.inj hmem
    omega
  · intro hne
    obtain ⟨num, hnum⟩ := exists_mem_of_ne_nil _ hne
    obtain ⟨i, rfl⟩ := hnumbered.natural num hnum
    have hi : i ≠ 0 := by
      rintro rfl
      exact hzero hnum
    exact ⟨i, mem_append_left _ hnum, by omega⟩

theorem renumbers_compressedRows_iff {hasMasks : Bool} {rows : List HistoryRow}
    {historyEnd : Int} (hbelow : ∀ n, some n ∈ numsOf rows → n < historyEnd) :
    Renumbers (compressedRows imgid hasMasks rows historyEnd) ↔ KeepsNumbers hasMasks rows := by
  rw [compressedRows, keptRows_eq hbelow]
  set left := rows.filter fun row => Stays rows row with hleft
  have hnil : numsOf left = [] ↔ left = [] := map_eq_nil_iff
  cases hasMasks with
  | false =>
    rw [Renumbers, maxNum_pos_iff]
    refine or_congr_right (and_congr_right fun hnumbered => ?_)
    constructor
    · rintro ⟨n, hmem, hpos⟩
      exact ⟨some n, hmem, fun h => absurd (some.inj h) (by omega)⟩
    · rintro ⟨num, hmem, hne⟩
      obtain ⟨i, rfl⟩ := hnumbered.natural num hmem
      have hi : i ≠ 0 := by
        rintro rfl
        exact hne rfl
      exact ⟨i, hmem, by omega⟩
  | true =>
    rw [if_pos rfl, Renumbers, maxNum_pos_iff, numsOf_append, numsOf_shiftRow,
      or_iff_right (by simp)]
    show Numbered (_ ++ [some 0]) ∧ (∃ n, some n ∈ _ ++ [some 0] ∧ 0 < n) ↔ _
    rw [and_congr_right exists_pos_iff, ne_eq, map_eq_nil_iff, hnil, and_comm]
    refine and_congr_right fun _ => ?_
    cases hposition : managerPosition rows with
    | true =>
      have hid : (numsOf left).map (Option.map (· + 0)) = numsOf left := by
        simp
      rw [if_pos rfl, hid, numbered_append_zero_iff]
      exact and_congr_right fun _ => ⟨fun h _ => h, fun h => h rfl⟩
    | false =>
      rw [if_neg (by decide), numbered_shift_iff]
      exact ⟨fun h => ⟨h, fun hfalse => absurd hfalse (by decide)⟩, fun h => h.1⟩

theorem compressedRows_eq (imgid : ImgId) (hasMasks : Bool) (rows : List HistoryRow)
    (historyEnd : Int) (hbelow : ∀ n, some n ∈ numsOf rows → n < historyEnd) :
    ∃ cnt managers, (∀ row ∈ managers, row.operation = some opMaskManager) ∧
      compressedRows imgid hasMasks rows historyEnd =
        (rows.filter fun row => Stays rows row).map (shiftRow cnt) ++ managers := by
  rw [compressedRows, keptRows_eq hbelow]
  cases hasMasks with
  | true =>
    refine ⟨_, _, fun row hrow => ?_, if_pos rfl⟩
    rw [mem_singleton.mp hrow]
    rfl
  | false =>
    refine ⟨0, [], fun row hrow => absurd hrow not_mem_nil, ?_⟩
    rw [map_shiftRow_zero, append_nil]
    rfl

section Attop

variable {db : Database} {imgid : ImgId}

theorem numBelow_of_attop (hattop : dtHistoryEndAttop db imgid = 1) :
    ∀ n, some n ∈ numsOf (db.historyOf imgid) → n < columnInt (db.historyEnd imgid) := by
  intro n hn
  have hle := le_maxNum hn
  have hlt : columnInt (maxNum (db.historyOf imgid)) < columnInt (db.historyEnd imgid) := by
    by_contra hge
    rw [dtHistoryEndAttop] at hattop
    split at hattop
    · cases hattop
    · cases hattop
  omega

def leftRows (db : Database) (imgid : ImgId) : List HistoryRow :=
  if columnInt (db.historyEnd imgid) = 0 then []
  else
    compressedRows imgid (db.masksOf imgid ≠ []) (db.historyOf imgid)
      (columnInt (db.historyEnd imgid))

/-- The compression with the renumbering after it, on the rows. -/
theorem compressed_iff {after : Database} (hattop : dtHistoryEndAttop db imgid = 1)
    (hrows : after.historyOf imgid = renumberedRows (leftRows db imgid))
    (hend : columnInt (after.historyEnd imgid) = renumberedCount (leftRows db imgid)) :
    Compressed db after imgid ↔ CompressKeeps db imgid := by
  have hbelow := numBelow_of_attop hattop
  have hsettled : Renumbers (leftRows db imgid) ↔
      (numsOf (after.historyOf imgid)).Perm
          ((range (after.historyOf imgid).length).map fun i : Nat => some (i : Int)) ∧
        columnInt (after.historyEnd imgid) = (after.historyOf imgid).length := by
    rw [← renumbers_iff, hrows, hend]
  by_cases hzero : columnInt (db.historyEnd imgid) = 0
  · have hnil : leftRows db imgid = [] := if_pos hzero
    rw [hnil] at hrows hend hsettled
    rw [CompressKeeps, if_pos hzero]
    constructor
    · intro h row hrow hsome
      by_contra hop
      have hlast := h.lastActive (rowKey row) hop
      rw [hrows] at hlast
      have hnone := lastRow_eq_none_iff.mp (map_eq_none_iff.mp hlast.symm) row hrow rfl
      obtain ⟨n, hn⟩ := isSome_iff_exists.mp hsome
      have hlt := hbelow n (hn ▸ mem_map_of_mem hrow)
      rw [hn] at hnone
      exact (of_decide_eq_false hnone) hlt
    · intro h
      refine ⟨(hsettled.mp (Or.inl rfl)).1, (hsettled.mp (Or.inl rfl)).2, fun key hkey => ?_⟩
      rw [hrows, hend]
      refine (map_eq_none_iff.mpr (lastRow_eq_none_iff.mpr fun row hrow hrowKey => ?_)).symm
      cases hnum : row.num with
      | none => rfl
      | some n =>
        have hop := h row hrow (by rw [hnum]; rfl)
        exact absurd ((congrArg Prod.fst hrowKey).symm.trans hop) hkey
  · have hleft : leftRows db imgid = compressedRows imgid (db.masksOf imgid ≠ [])
        (db.historyOf imgid) (columnInt (db.historyEnd imgid)) := if_neg hzero
    rw [CompressKeeps, if_neg hzero, ← renumbers_compressedRows_iff hbelow, ← hleft]
    refine ⟨fun h => hsettled.mpr ⟨h.numbered, h.historyEnd⟩, fun h => ?_⟩
    refine ⟨(hsettled.mp h).1, (hsettled.mp h).2, fun key hkey => ?_⟩
    rw [hrows, hend]
    obtain ⟨cnt, managers, hmanagers, hparts⟩ :=
      compressedRows_eq imgid (db.masksOf imgid ≠ []) (db.historyOf imgid) _ hbelow
    rw [hleft, hparts] at h ⊢
    exact lastSettings_renumbered hbelow hmanagers h hkey

end Attop

-- The edits of the other images stay, and the image stays in the library.
structure OnlyImage (imgid : ImgId) (after before : Database) : Prop where
  others : ∀ j, j ≠ imgid → after.SameEdit before j
  images : (after.images imgid).isSome = (before.images imgid).isSome

theorem OnlyImage.trans {imgid : ImgId} (h : OnlyImage imgid a b)
    (h' : OnlyImage imgid b c) : OnlyImage imgid a c :=
  ⟨fun j hj => (h.others j hj).trans (h'.others j hj), h.images.trans h'.images⟩

section OnlyImage

variable (md5 : Blob → Blob) (imgid : ImgId) (db : Database)

theorem sameEdit_insertSnapshot (snap : Snapshot) (j : ImgId) :
    (insertSnapshot {} imgid snap db).SameEdit db j := by
  unfold insertSnapshot
  split
  · exact ⟨rfl, rfl, rfl, rfl⟩
  · exact ⟨rfl, rfl, rfl, rfl⟩

theorem onlyImage_insertSnapshot (snap : Snapshot) :
    OnlyImage imgid (insertSnapshot {} imgid snap db) db := by
  refine ⟨fun j _ => sameEdit_insertSnapshot imgid db snap j, ?_⟩
  unfold insertSnapshot
  split
  · rfl
  · rfl

theorem onlyImage_hashWrite (flags : HashFlags) :
    OnlyImage imgid (dtHistoryHashWriteFromHistory md5 db imgid flags) db := by
  refine ⟨fun j _ => sameEdit_hashWrite md5 db imgid flags j, ?_⟩
  obtain ⟨hashes, heq⟩ := dtHistoryHashWriteFromHistory_eq md5 db imgid flags
  rw [heq]

theorem onlyImage_deleteOnImage : OnlyImage imgid (deleteOnImage md5 {} imgid db) db := by
  refine ⟨fun j hj => ?_, (deleteOnImage_spec imgid md5 db).2.2.2.1⟩
  have hhash : ∀ db' : Database, (deleteHistoryHash imgid db').SameEdit db' j :=
    fun _ => ⟨rfl, rfl, rfl, rfl⟩
  have horder : ∀ db' : Database, (deleteModuleOrder imgid db').SameEdit db' j :=
    fun _ => ⟨rfl, rfl, Function.update_of_ne hj .., rfl⟩
  refine (sameEdit_hashWrite ..).trans ((sameEdit_updateImage _ hj _).trans ((hhash _).trans ?_))
  exact (sameEdit_deleteMasks _ hj).trans ((sameEdit_updateImage _ hj _).trans
    ((horder _).trans (sameEdit_deleteHistory _ hj)))

theorem sameEdit_ownMasks (position : Bool) {j : ImgId} (hj : j ≠ imgid) :
    (ownMasks imgid position db).SameEdit db j := by
  have hmasks : (db.updateMasks imgid fun row => { row with num := some 0 }).SameEdit db j :=
    sameEdit_updateMasks db hj fun _ => rfl
  have hshift : ∀ db' : Database, (db'.shiftHistory imgid 1).SameEdit db' j :=
    fun db' => sameEdit_updateHistory db' hj (f := shiftRow 1) fun _ => rfl
  refine (sameEdit_insertHistory _ hj fun row hrow => ?_).trans ?_
  · rw [mem_singleton.mp hrow]
    rfl
  · cases position with
    | true => exact hmasks
    | false => exact (sameEdit_updateImage _ hj _).trans ((hshift _).trans hmasks)

theorem onlyImage_compressTables (historyEnd : Int) :
    OnlyImage imgid (compressTables imgid historyEnd db) db := by
  refine ⟨fun j hj => ?_, compressTables_images imgid historyEnd db⟩
  have hdeleted : (compressMasks imgid historyEnd (deleteMaskManager imgid
      (deleteSuperseded imgid historyEnd db))).SameEdit db j :=
    (sameEdit_deleteMasksWhere _ hj _).trans ((sameEdit_deleteHistoryWhere _ hj _).trans
      (sameEdit_deleteHistoryWhere _ hj _))
  rw [compressTables]
  split
  · exact hdeleted
  · exact (sameEdit_ownMasks imgid _ _ hj).trans hdeleted

theorem sameEdit_renumberStep (indices : List Nat) (s : Database × Nat) {j : ImgId}
    (hj : j ≠ imgid) : (indices.foldl (renumberStep imgid) s).1.SameEdit s.1 j := by
  induction indices generalizing s with
  | nil => exact refl _ j
  | cons index indices ih =>
    refine (ih _).trans ?_
    unfold renumberStep
    split
    · exact sameEdit_updateHistory _ hj fun _ => rfl
    · exact refl _ j

theorem onlyImage_renumberHistory : OnlyImage imgid (renumberHistory imgid db) db := by
  have hset : ∀ s : Database × Nat, OnlyImage imgid s.1 db →
      OnlyImage imgid (s.1.setHistoryEnd imgid (some (s.2 : Int))) db := by
    intro s hs
    refine OnlyImage.trans ⟨fun j hj => sameEdit_updateImage _ hj _, ?_⟩ hs
    show (Function.update s.1.images imgid _ imgid).isSome = _
    rw [Function.update_self, isSome_map]
  apply hset
  split
  · refine ⟨fun j => sameEdit_renumberStep imgid _ _, ?_⟩
    obtain ⟨history, heq⟩ := renumberLoop_eq imgid
      (range ((columnInt (maxNum (db.historyOf imgid))).toNat + 1)) (db, 0)
    rw [renumberLoop, heq]
  · exact ⟨fun j _ => refl db j, rfl⟩

end OnlyImage

section Listed

variable (md5 : Blob → Blob) (c : Conn Database) (imgid : ImgId)

theorem compressOnImage_spec :
    OnlyImage imgid (dtHistoryCompressOnImage md5 c imgid).data c.data ∧
      (dtHistoryCompressOnImage md5 c imgid).data.historyOf imgid = leftRows c.data imgid := by
  rw [dtHistoryCompressOnImage, leftRows]
  by_cases hzero : columnInt (c.data.historyEnd imgid) = 0
  · rw [if_pos hzero, if_pos hzero]
    simp only [dtHistoryDeleteOnImageExt, if_true]
    set snapshot := (dtHistorySnapshotUndoCreate {} c imgid).1 with hsnapshot
    set deleted := snapshot.run (deleteOnImage md5 {} imgid) with hdeleted
    have hfirst : OnlyImage imgid snapshot.data c.data := by
      rw [create_data]
      exact onlyImage_insertSnapshot ..
    rw [create_data]
    refine ⟨(onlyImage_insertSnapshot ..).trans ((onlyImage_deleteOnImage ..).trans hfirst), ?_⟩
    rw [(sameEdit_insertSnapshot imgid deleted.data _ imgid).history]
    exact (deleteOnImage_spec imgid md5 snapshot.data).1
  · rw [if_neg hzero, if_neg hzero]
    have hdata : (((c.exec "BEGIN" true).run (compressTables imgid
        (columnInt (c.data.historyEnd imgid)))).run
          (dtHistoryHashWriteFromHistory md5 · imgid { current := true })).data =
        dtHistoryHashWriteFromHistory md5 (compressTables imgid
          (columnInt (c.data.historyEnd imgid)) c.data) imgid { current := true } := by
      rw [Conn.exec_begin_short]
      simp [Conn.run, Conn.start_data]
    rw [Conn.exec_commit, Conn.commit_data, hdata]
    refine ⟨(onlyImage_hashWrite ..).trans (onlyImage_compressTables ..), ?_⟩
    rw [(sameEdit_hashWrite md5 _ imgid _ imgid).history, historyOf_compressTables]

variable (n : Nat)

theorem compressListed_other {j : ImgId} (hj : j ≠ imgid) :
    (compressListed md5 (c, n) imgid).1.data.SameEdit c.data j := by
  refine (sameEdit_hashWrite ..).trans ?_
  split
  · exact ((onlyImage_renumberHistory imgid _).others j hj).trans
      ((compressOnImage_spec md5 c imgid).1.others j hj)
  · exact refl _ j

theorem compressListed_skip (hattop : dtHistoryEndAttop c.data imgid ≠ 1) :
    (compressListed md5 (c, n) imgid).1.data.SameEdit c.data imgid := by
  refine (sameEdit_hashWrite ..).trans ?_
  rw [if_neg hattop]
  exact refl _ imgid

theorem compressListed_iff (hattop : dtHistoryEndAttop c.data imgid = 1) :
    Compressed c.data (compressListed md5 (c, n) imgid).1.data imgid ↔
      CompressKeeps c.data imgid := by
  obtain ⟨honly, hleft⟩ := compressOnImage_spec md5 c imgid
  set compressed := (dtHistoryCompressOnImage md5 c imgid).data with hcompressed
  have hsame : (compressListed md5 (c, n) imgid).1.data.SameEdit (renumberHistory imgid compressed)
      imgid := by
    refine (sameEdit_hashWrite ..).trans ?_
    rw [if_pos hattop]
    exact refl _ imgid
  obtain ⟨hrows, hend⟩ := renumberHistory_spec imgid compressed
  rw [hleft] at hrows hend
  apply compressed_iff hattop
  · rw [hsame.history, hrows]
  · rw [hsame.historyEnd, hend]
    cases himage : compressed.images imgid with
    | some image => rfl
    | none =>
      -- an image that is not in the library has no history end
      have hnone : c.data.images imgid = none := by
        rw [← not_isSome_iff_eq_none, ← honly.images, himage]
        decide
      have hzero : columnInt (c.data.historyEnd imgid) = 0 := by
        rw [Database.historyEnd, hnone]
        rfl
      rw [leftRows, if_pos hzero]
      rfl

end Listed

section List

variable (md5 : Blob → Blob) (imgid : ImgId)

-- Every time the image comes up in the list with `history_end` at the top, it meets the condition.
def PassesKeep : Conn Database × Nat → List ImgId → Prop
  | _, [] => True
  | s, img :: imgs =>
      (img = imgid → dtHistoryEndAttop s.1.data imgid = 1 → CompressKeeps s.1.data imgid) ∧
        PassesKeep (compressListed md5 s img) imgs

theorem compressList_other (imgs : List ImgId) (s : Conn Database × Nat) (himgid : imgid ∉ imgs) :
    (imgs.foldl (compressListed md5) s).1.data.SameEdit s.1.data imgid := by
  induction imgs generalizing s with
  | nil => exact refl _ imgid
  | cons img imgs ih =>
    refine (ih _ fun h => himgid (mem_cons_of_mem _ h)).trans ?_
    exact compressListed_other md5 s.1 img s.2 fun h => himgid (h ▸ mem_cons_self)

theorem compressList_keeps (db : Database) (imgs : List ImgId) (s : Conn Database × Nat)
    (hkeep : PassesKeep md5 imgid s imgs) (hs : Compressed db s.1.data imgid) :
    Compressed db (imgs.foldl (compressListed md5) s).1.data imgid := by
  induction imgs generalizing s with
  | nil => exact hs
  | cons img imgs ih =>
    apply ih _ hkeep.2
    by_cases himg : img = imgid
    · subst himg
      by_cases hattop : dtHistoryEndAttop s.1.data img = 1
      · exact hs.trans ((compressListed_iff md5 s.1 img s.2 hattop).mpr (hkeep.1 rfl hattop))
      · exact (compressed_congr (refl db img)
          (compressListed_skip md5 s.1 img s.2 hattop)).mpr hs
    · exact (compressed_congr (refl db imgid)
        (compressListed_other md5 s.1 img s.2 (Ne.symm himg))).mpr hs

theorem passesKeep_append (before after : List ImgId) (s : Conn Database × Nat) :
    PassesKeep md5 imgid s (before ++ after) ↔ PassesKeep md5 imgid s before ∧
      PassesKeep md5 imgid (before.foldl (compressListed md5) s) after := by
  induction before generalizing s with
  | nil => exact ⟨fun h => ⟨trivial, h⟩, fun h => h.2⟩
  | cons img before ih =>
    show (_ ∧ PassesKeep md5 imgid _ (before ++ after)) ↔ (_ ∧ _) ∧ _
    rw [ih, and_assoc]
    rfl

end List

theorem attop_congr {db db' : Database} {imgid : ImgId} (h : db.SameEdit db' imgid) :
    dtHistoryEndAttop db imgid = dtHistoryEndAttop db' imgid := by
  rw [dtHistoryEndAttop, dtHistoryEndAttop, h.history, h.historyEnd]

/-- Of an image that is listed once, the history is compressed exactly if its edit meets the
condition before; one that is listed more often is compressed if it does every time. -/
theorem compressOnList_compressed_iff (md5 : Blob → Blob) (c : Conn Database) (imgs : List ImgId)
    (imgid : ImgId) (himgid : imgid ∈ imgs) (hattop : dtHistoryEndAttop c.data imgid = 1) :
    (imgs.count imgid = 1 →
        (Compressed c.data (dtHistoryCompressOnList md5 c imgs).1.data imgid ↔
          CompressKeeps c.data imgid)) ∧
      (PassesKeep md5 imgid (c, 0) imgs →
        Compressed c.data (dtHistoryCompressOnList md5 c imgs).1.data imgid) := by
  obtain ⟨before, after, rfl, hbefore⟩ := eq_append_cons_of_mem himgid
  set s := before.foldl (compressListed md5) (c, 0) with hs
  have hsame : s.1.data.SameEdit c.data imgid := compressList_other md5 imgid before _ hbefore
  have hattop' : dtHistoryEndAttop s.1.data imgid = 1 := (attop_congr hsame).trans hattop
  have hfold : dtHistoryCompressOnList md5 c (before ++ imgid :: after) =
      after.foldl (compressListed md5) (compressListed md5 s imgid) := by
    rw [dtHistoryCompressOnList, foldl_append, foldl_cons]
  have honce := compressListed_iff md5 s.1 imgid s.2 hattop'
  rw [hfold]
  constructor
  · intro hcount
    have hafter : imgid ∉ after := by
      rw [count_append, count_cons_self] at hcount
      exact count_eq_zero.mp (by omega)
    rw [← compressKeeps_congr hsame, ← honce]
    exact compressed_congr hsame.symm (compressList_other md5 imgid after _ hafter)
  · intro hkeep
    obtain ⟨hfirst, hrest⟩ := ((passesKeep_append md5 imgid before _ _).mp hkeep).2
    apply compressList_keeps md5 imgid c.data after _ hrest
    exact (compressed_congr hsame (refl _ imgid)).mp (honce.mpr (hfirst rfl hattop'))

def sampleGaps : Conn Database :=
  ⟨sampleDb 5 [sampleRow 0 "exposure", sampleRow 2 "demosaic", sampleRow 4 "exposure"], none⟩

theorem compressOnList_compressed_gaps :
    Compressed sampleGaps.data (dtHistoryCompressOnList id sampleGaps [2, 1]).1.data 1 :=
  ((compressOnList_compressed_iff id sampleGaps [2, 1] 1 (by decide) (by decide)).1
    (by decide)).mpr (by decide)

def sampleOneRow : Conn Database := ⟨sampleDb 1 [sampleRow 0 "exposure"], none⟩

/-- The one row that is left is at slot 0: nothing is counted, and with `history_end` at 0 the row
is undone. -/
theorem compressOnList_undoes_single :
    dtHistoryEndAttop sampleOneRow.data 1 = 1 ∧
      (dtHistoryCompressOnList id sampleOneRow [1]).1.data.historyOf 1 =
        [sampleRow 0 "exposure"] ∧
      (dtHistoryCompressOnList id sampleOneRow [1]).1.data.historyEnd 1 = some 0 ∧
      ¬ Compressed sampleOneRow.data (dtHistoryCompressOnList id sampleOneRow [1]).1.data 1 :=
  ⟨by decide, by decide, by decide, fun h => absurd h.historyEnd (by decide)⟩

end DTLite
