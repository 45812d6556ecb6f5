import DTLite.Common.ThumbnailSteps

/-!
# Removing thumbnails

What is left of a thumbnail when `dt_mipmap_cache_remove_at_size` has returned, whatever the other
threads do meanwhile and afterwards.
-/

namespace DTLite

open Reasoning Option Cache

def CacheEntry.WrittenBy (key : UInt32) (t : ThreadId) (entry : CacheEntry) : Prop :=
  entry.key = key ∧ entry.lock.Holds t true

namespace Cache

variable {c c' : Cache} {t : ThreadId}

/-- What a thread has locked for writing, it still has. -/
def KeepsWritten (t : ThreadId) (c c' : Cache) : Prop :=
  ∀ ref key, c.At ref (CacheEntry.WrittenBy key t) → c'.At ref (CacheEntry.WrittenBy key t)

theorem isFree_of_writtenBy {key : UInt32} {entry : CacheEntry} (h : entry.WrittenBy key t) :
    entry.lock.isFree = false := RwLock.isFree_eq_false_of_holds h.2

theorem KeepsGuarded.keepsWritten (h : KeepsGuarded c c') : KeepsWritten t c c' :=
  fun _ _ hat => hat.keepsGuarded (fun _ => isFree_of_writtenBy) h

theorem tryLock_of_writtenBy {key : UInt32} {entry : CacheEntry} (h : entry.WrittenBy key t)
    (mode : LockMode) (u : ThreadId) : mode.tryLock entry.lock u = none := by
  cases mode with
  | write => exact h.2.tryWrlock
  | read =>
    rcases hlock : entry.lock with v | ts
    · rfl
    · exact absurd (hlock ▸ h.2 : (RwLock.shared ts).Holds t true) id

theorem Consistent.keepsWritten_get (h : c.Consistent) (setup : CacheSetup) (key : UInt32)
    (mode : LockMode) (u : ThreadId) (cost : UInt64) :
    KeepsWritten t c (dtCacheGet setup c key mode u cost).1 :=
  fun _ _ hat => h.at_get_other hat (fun _ => isFree_of_writtenBy) setup cost
    fun _ _ _ hentry => tryLock_of_writtenBy hentry mode u

theorem Consistent.keepsWritten_testget (h : c.Consistent) (key : UInt32) (mode : LockMode)
    (u : ThreadId) : KeepsWritten t c (dtCacheTestget c key mode u).1 :=
  fun _ _ hat => h.at_testget_other hat fun _ _ _ hentry => tryLock_of_writtenBy hentry mode u

theorem keepsWritten_release {u : ThreadId} (hne : t ≠ u) (ref : EntryRef) :
    KeepsWritten t c (dtCacheRelease c ref u) :=
  fun _ _ hat => hat.release (fun _ hentry => ⟨hentry.1, hentry.2.unlock hne⟩) ref

theorem keepsWritten_demoting (ref : EntryRef) (value : Bool) :
    KeepsWritten t c (setLockDemoting c ref value) :=
  fun _ _ hat => hat.setEntry (fun _ hentry _ => hentry) fun _ hentry _ => hentry

end Cache

structure Removal.Valid (r : Removal) : Prop where
  pos : 0 < r.imgid
  imgid : r.imgid ≤ 0x10000000
  mip : r.mip ≤ dtMipmap8

variable {r : Removal}

theorem Removal.Valid.getSize (h : r.Valid) : getSize r.key = r.mip :=
  getSize_getKey h.pos h.imgid h.mip

theorem Removal.Valid.getImgid (h : r.Valid) : getImgid r.key = r.imgid :=
  getImgid_getKey h.pos h.imgid h.mip

theorem Removal.Valid.isThumbnail (h : r.Valid) : DTLite.getSize r.key < dtMipmapF := by
  rw [h.getSize]
  exact UInt32.lt_of_le_of_lt h.mip (by decide)

def RemovalState.tested : RemovalState → Option Removal
  | .testing r => some r
  | _ => none
def RemovalState.unlinked : RemovalState → Option Removal
  | .unlinking r => some r
  | _ => none

namespace Thumbnails

variable {n : Nat}

/-- What was there before a removal that has returned is neither in memory nor on disk. -/
def StaysRemoved (s : Thumbnails n) : Prop :=
  ∀ r ∈ s.removed,
    (∀ ref ∈ s.cache.hashtable r.key, (s.buffers ref).toThumbnail.IsNew r.since) ∧
      ∀ thumb ∈ s.disk.onDisk s.files r.key, thumb.IsNew r.since

/-- A removal finds no entry, or a free one that is generated and no skull if there is a file; no
lookup reads a file that a removal is about to delete. -/
def RemovesAlone (s : Thumbnails n) : ThumbnailEvent n → Prop
  | .removeAtSize _ imgid _ => 0 < imgid ∧ imgid ≤ 0x10000000
  | .advance i _ => ∀ r ∈ (s.calls i).tested, ∀ ref ∈ s.cache.hashtable r.key,
      (∀ entry ∈ s.cache.entries ref, entry.lock.isFree = true) ∧
        ((s.buffers ref).generate = false ∧ (s.buffers ref).isSkull = false ∨
          s.disk.onDisk s.files r.key = none)
  | .get _ key .. => s.cache.hashtable key = none → ∀ j, ∀ r ∈ (s.calls j).unlinked,
      r.key = key → s.disk.onDisk s.files key = none
  | _ => True

instance (s : Thumbnails n) : (e : ThumbnailEvent n) → Decidable (s.RemovesAlone e)
  | .removeAtSize .. => inferInstanceAs (Decidable (_ ∧ _))
  | .advance i _ => inferInstanceAs (Decidable (∀ r ∈ (s.calls i).tested, _))
  | .get .. => inferInstanceAs (Decidable (_ → ∀ _, _))
  | .testget .. | .release .. | .demoting .. | .draw .. | .evict .. | .gc .. | .settings .. =>
      inferInstanceAs (Decidable True)

end Thumbnails

structure Removal.Current (r : Removal) (generated : Nat) : Prop extends r.Valid where
  since : r.since ≤ generated

def RemovalState.Relies {n : Nat} (s : Thumbnails n) (t : ThreadId) : RemovalState → Prop
  | .idle => True
  | .testing r => r.Current s.generated
  | .invalidating r ref => r.Current s.generated ∧ s.cache.At ref (CacheEntry.WrittenBy r.key t) ∧
      (s.view r.key).Sized r.since ref
  | .removing r => r.Current s.generated ∧
      ((s.view r.key).Clean r.since ∨ (s.view r.key).Doomed r.since)
  | .unlinking r => r.Current s.generated ∧ (s.view r.key).MemoryNew r.since

namespace Thumbnails

variable {n : Nat} {s s' : Thumbnails n}

structure Sound (s : Thumbnails n) : Prop where
  consistent : s.cache.Consistent
  relies : ∀ i : Fin n, (s.calls i).Relies s i
  removed : ∀ r ∈ s.removed, r.Current s.generated ∧ (s.view r.key).Clean r.since

/-- What a step does to the threads that do not take part in it. -/
structure Moves (others : Fin n → Prop) (s s' : Thumbnails n) : Prop where
  consistent : s'.cache.Consistent
  view : ∀ k, getSize k < dtMipmapF → ViewStep s.generated (s.view k) (s'.view k)
  generated : s.generated ≤ s'.generated
  keeps : ∀ j, others j → Cache.KeepsWritten j s.cache s'.cache
  loads : ∀ j, ∀ r ∈ (s.calls j).unlinked, s.cache.hashtable r.key = none →
    s'.cache.hashtable r.key = none ∨ s.disk.onDisk s.files r.key = none

theorem memory_ne_none (h : s.cache.Consistent) {ref : EntryRef} {key : UInt32} {t : ThreadId}
    (hat : s.cache.At ref (CacheEntry.WrittenBy key t)) : (s.view key).memory ≠ none := by
  obtain ⟨hmem, entry, hentry, hkey, -⟩ := hat
  have hfound : s.cache.hashtable key = some ref :=
    (h.lookup key ref).mpr ⟨hmem, by rw [keyOf, hentry, ← hkey]; rfl⟩
  rw [view, hfound]
  exact some_ne_none _

variable {i : Fin n} {others : Fin n → Prop} {r : Removal}

theorem Moves.current (h : Moves others s s') (hr : r.Current s.generated) :
    r.Current s'.generated :=
  ⟨hr.toValid, hr.since.trans h.generated⟩

theorem Moves.relies (h : Moves others s s') {j : Fin n} (hj : others j)
    (hrelies : (s.calls j).Relies s j) : (s.calls j).Relies s' j := by
  have hloads := h.loads j
  generalize s.calls j = state at hrelies hloads
  cases state with
  | idle => trivial
  | testing r => exact h.current hrelies
  | invalidating r ref =>
    obtain ⟨hr, hat, hsized⟩ := hrelies
    have hat' := h.keeps j hj ref r.key hat
    exact ⟨h.current hr, hat', hsized.step (h.view _ hr.isThumbnail)
      (memory_ne_none h.consistent hat')⟩
  | removing r =>
    obtain ⟨hr, hgone⟩ := hrelies
    have hview := h.view _ hr.isThumbnail
    refine ⟨h.current hr, ?_⟩
    rcases hgone with hclean | hdoomed
    · exact .inl (hclean.step hr.since hview)
    · exact hdoomed.step hview
  | unlinking r =>
    obtain ⟨hr, hnew⟩ := hrelies
    refine ⟨h.current hr, hnew.step hr.since (h.view _ hr.isThumbnail) ?_⟩
    intro hnone hsome
    rcases hloads r rfl (map_eq_none_iff.mp hnone) with hstill | hfile
    · exact absurd (congrArg (Option.map _) hstill) hsome
    · exact .of_none hfile

theorem Sound.of_moves (h : s.Sound) (hmoves : Moves others s s')
    (hcalls : ∀ j, others j → s'.calls j = s.calls j)
    (hself : ∀ j, ¬ others j → (s'.calls j).Relies s' j)
    (hremoved : ∀ r ∈ s'.removed, r ∈ s.removed ∨
      r.Current s'.generated ∧ (s'.view r.key).Clean r.since) : s'.Sound where
  consistent := hmoves.consistent
  relies j := by
    by_cases hj : others j
    · rw [hcalls j hj]
      exact hmoves.relies hj (h.relies j)
    · exact hself j hj
  removed r hr := by
    rcases hremoved r hr with hold | hnew
    · obtain ⟨hcurrent, hclean⟩ := h.removed r hold
      exact ⟨hmoves.current hcurrent,
        hclean.step hcurrent.since (hmoves.view _ hcurrent.isThumbnail)⟩
    · exact hnew

theorem Sound.staysRemoved (h : s.Sound) : s.StaysRemoved := by
  intro r hr
  obtain ⟨-, hmemory, hfile⟩ := h.removed r hr
  refine ⟨fun ref href => ?_, hfile⟩
  have hentry : (ref, s.buffers ref) ∈ (s.view r.key).memory := by
    rw [view, mem_def.mp href]
    rfl
  exact hmemory _ hentry

/-! ## One step -/

theorem moves_withCache (h : s.cache.Consistent) {c' : Cache} (hc : c'.Consistent)
    (hshrinks : Shrinks s.cache c') (hkeeps : ∀ j, others j → KeepsWritten j s.cache c')
    (writes : EntryRef → Bool) : Moves others s (s.withCache c' writes) where
  consistent := hc
  view k hk := viewStep_withCache h hk (hshrinks k) writes
  generated := Nat.le_refl _
  keeps := hkeeps
  loads _ r _ hnone := .inl ((hshrinks r.key).elim (·.trans hnone) id)

theorem moves_get (h : s.cache.Consistent) (setup : CacheSetup) (i : Fin n) (key : UInt32)
    (mode : LockMode) (cost : UInt64) (readable : Bool) (writes : EntryRef → Bool)
    (halone : s.RemovesAlone (.get i key mode cost readable writes)) :
    Moves (fun _ => True) s (s.get setup key mode i cost readable writes) := by
  have hcache : (s.get setup key mode i cost readable writes).cache =
      (dtCacheGet (mipmapSetup setup) s.cache key mode i cost).1 := by
    unfold get
    dsimp only
    split <;> rfl
  have hgenerated : (s.get setup key mode i cost readable writes).generated = s.generated := by
    unfold get
    dsimp only
    split <;> rfl
  refine ⟨?_, fun k hk ↦ viewStep_get h hk setup key mode i cost readable writes, hgenerated.ge, ?_,
    ?_⟩
  · rw [hcache]
    exact h.get _ key mode i cost
  · intro j _
    rw [hcache]
    exact h.keepsWritten_get _ key mode i cost
  · intro j r hr hnone
    rw [hcache]
    by_cases hne : r.key = key
    · exact .inr (hne ▸ halone (hne ▸ hnone) j r hr hne)
    · left
      exact (h.shrinks_get_ne (mipmapSetup setup) key mode i cost hne).elim (·.trans hnone) id

theorem Sound.outside (h : s.Sound) (i : Fin n) (hmoves : Moves (· ≠ i) s s')
    (hcalls : s'.calls = s.calls) (hremoved : s'.removed = s.removed) : (s.outside i s').Sound := by
  unfold Thumbnails.outside
  split
  next hidle =>
    apply h.of_moves hmoves
    · exact fun j _ => congrFun hcalls j
    · intro j hj
      rw [hcalls, not_not.mp hj, hidle]
      trivial
    · exact fun r hr => .inl (hremoved ▸ hr)
  next => exact h

theorem Moves.mono {others' : Fin n → Prop} (h : Moves others s s')
    (himp : ∀ j, others' j → others j) : Moves others' s s' :=
  { h with keeps := fun j hj => h.keeps j (himp j hj) }

section

variable (h : s.Sound)
include h

theorem Sound.of_moves_same (hmoves : Moves (fun _ => True) s s')
    (hcalls : s'.calls = s.calls) (hremoved : s'.removed = s.removed) : s'.Sound := by
  apply h.of_moves hmoves
  · exact fun j _ => congrFun hcalls j
  · exact fun j => absurd trivial
  · exact fun r hr => .inl (hremoved ▸ hr)

theorem Sound.setCall (hmoves : Moves (· ≠ i) s s')
    (hcalls : s'.calls = s.calls) {call : RemovalState} (hcall : call.Relies s' i)
    (hremoved : ∀ r ∈ s'.removed, r ∈ s.removed ∨
      r.Current s'.generated ∧ (s'.view r.key).Clean r.since) :
    (s'.setCall i call).Sound := by
  have hmoves' : Moves (· ≠ i) s (s'.setCall i call) :=
    ⟨hmoves.consistent, hmoves.view, hmoves.generated, hmoves.keeps, hmoves.loads⟩
  apply h.of_moves hmoves' ?_ ?_ hremoved
  · intro j hj
    exact (Function.update_of_ne hj _ _).trans (congrFun hcalls j)
  · intro j hj
    rw [not_not.mp hj]
    show (Function.update s'.calls i call i).Relies _ _
    rw [Function.update_self]
    exact hcall

theorem Sound.returns (hmoves : Moves (· ≠ i) s s') (hcalls : s'.calls = s.calls)
    (hremoved : s'.removed = s.removed) (hr : r.Current s'.generated)
    (hclean : (s'.view r.key).Clean r.since) : (s'.returns i r).Sound := by
  have hmoves' : Moves (· ≠ i) s { s' with removed := r :: s'.removed } :=
    ⟨hmoves.consistent, hmoves.view, hmoves.generated, hmoves.keeps, hmoves.loads⟩
  refine h.setCall hmoves' hcalls (show RemovalState.idle.Relies _ _ from trivial) ?_
  intro r' hr'
  rcases List.mem_cons.mp hr' with rfl | hold
  · exact .inr ⟨hr, hclean⟩
  · exact .inl (hremoved ▸ hold)

theorem Sound.advance_testing (hcall : s.calls i = .testing r)
    (writes : EntryRef → Bool) (halone : s.RemovesAlone (.advance i writes)) :
    (s.advance i writes).Sound := by
  have hrelies := h.relies i
  rw [hcall] at hrelies
  have hr : r.Current s.generated := hrelies
  replace halone := halone r (by rw [hcall]; rfl)
  rw [advance, hcall]
  have hmoves : Moves (· ≠ i) s (s.withCache (dtCacheTestget s.cache r.key .write i).1 writes) :=
    moves_withCache h.consistent (h.consistent.testget _ _ _) (shrinks_testget _ _ _ _)
      (fun j _ => h.consistent.keepsWritten_testget _ _ _) writes
  refine h.setCall hmoves rfl ?_ fun r' hr' => .inl hr'
  obtain ⟨ref, c', href, hlock, heq⟩ | heq := dtCacheTestget_cases s.cache r.key .write i
  · obtain ⟨hmem, -⟩ := (h.consistent.lookup _ _).mp href
    obtain ⟨hmem', entry, hentry, hholds, hkey⟩ := at_lockEntry hmem hlock
    rw [((h.consistent.lookup _ _).mp href).2] at hkey
    have hat : (s.withCache c' writes).cache.At ref (CacheEntry.WrittenBy r.key i) :=
      ⟨hmem', entry, hentry, (some.inj hkey).symm, hholds⟩
    have hsized : (s.view r.key).Sized r.since ref :=
      ⟨s.buffers ref, by rw [view, href]; rfl, (halone ref href).2.imp_right .of_none⟩
    rw [heq] at hmoves ⊢
    exact ⟨hr, hat,
      hsized.step (hmoves.view _ hr.isThumbnail) (memory_ne_none hmoves.consistent hat)⟩
  · -- nobody has the entry, so it is not there
    have hnone : s.cache.hashtable r.key = none := by
      rcases hfound : s.cache.hashtable r.key with _ | ref
      · rfl
      · obtain ⟨entry, hentry⟩ := isSome_iff_exists.mp
          (h.consistent.inMemory ref ((h.consistent.lookup _ _).mp hfound).1)
        have hfree := (halone ref hfound).1 entry hentry
        obtain ⟨lock, htry⟩ := RwLock.tryWrlock_of_isFree hfree i.val
        have htest : (dtCacheTestget s.cache r.key .write i).2 = some ref := by
          simp [dtCacheTestget, hfound, lockEntry, hentry, LockMode.tryLock, htry]
        rw [heq] at htest
        cases htest
    rw [heq]
    refine ⟨hr, .of_none ?_⟩
    show (s.cache.hashtable r.key).map _ = none
    rw [hnone]
    rfl

theorem Sound.advance_invalidating {ref : EntryRef}
    (hcall : s.calls i = .invalidating r ref) (writes : EntryRef → Bool) :
    (s.advance i writes).Sound := by
  have hrelies := h.relies i
  rw [hcall] at hrelies
  obtain ⟨hr, -, buf, hmemory, hsized⟩ := hrelies
  rw [advance, hcall]
  have hview : ∀ k, ((s.invalidate ref).withCache (dtCacheRelease s.cache ref i) writes).view k =
      (s.invalidate ref).view k :=
    fun k => view_withCache (s := s.invalidate ref) h.consistent rfl writes
  have hmoves : Moves (· ≠ i) s
      ((s.invalidate ref).withCache (dtCacheRelease s.cache ref i) writes) := by
    refine ⟨h.consistent.release ref i, ?_, Nat.le_refl _, ?_, fun _ _ _ => .inl⟩
    · intro k _
      rw [hview]
      exact viewStep_invalidate ref
    · exact fun j hj => keepsWritten_release (Fin.val_ne_of_ne hj) ref
  refine h.setCall hmoves rfl ⟨hr, .inr ?_⟩ fun r' hr' => .inl hr'
  rw [hview]
  obtain ⟨found, href, hbuf⟩ := map_eq_some_iff.mp hmemory
  cases hbuf
  refine ⟨ref, { s.buffers ref with invalidate := true }, ?_, rfl, hsized⟩
  show (s.cache.hashtable r.key).map _ = _
  rw [href]
  exact congrArg (fun buf => some (ref, buf)) (Function.update_self _ _ _)

theorem Sound.advance_removing (hcall : s.calls i = .removing r)
    (writes : EntryRef → Bool) : (s.advance i writes).Sound := by
  have hmoves : Moves (fun _ => True) s (s.withCache (dtCacheRemove s.cache r.key) writes) :=
    moves_withCache h.consistent (h.consistent.remove _) (shrinks_remove _ _)
      (fun _ _ => (h.consistent.keepsGuarded_remove _).keepsWritten) writes
  rw [advance, hcall]
  dsimp only
  split
  next hnone =>
    have hrelies := hmoves.relies (j := i) trivial (h.relies i)
    rw [hcall] at hrelies
    obtain ⟨hr, hclean | ⟨ref, buf, hmemory, -⟩⟩ := hrelies
    · exact h.returns (hmoves.mono fun _ _ => trivial) rfl rfl hr hclean
    · rw [view, isNone_iff_eq_none.mp hnone] at hmemory
      cases hmemory
  next => exact h.of_moves_same hmoves rfl rfl

theorem Sound.advance_unlinking (hcall : s.calls i = .unlinking r)
    (writes : EntryRef → Bool) : (s.advance i writes).Sound := by
  have hrelies := h.relies i
  rw [hcall] at hrelies
  obtain ⟨hr, hnew⟩ := hrelies
  rw [advance, hcall]
  have hunlink := unlink_fileOf s.disk s.files r.key
  rw [hr.getImgid, hr.getSize] at hunlink
  refine h.returns ⟨h.consistent, ?_, Nat.le_refl _, fun _ _ _ _ ↦ id, fun _ _ _ ↦ .inl⟩ rfl rfl hr
    ⟨hnew, .of_none hunlink.1⟩
  intro k _
  by_cases hk : k = r.key
  · have hview : { s with files := s.files.unlink (s.disk.unlinks r.imgid r.mip) }.view k =
        ⟨(s.view k).memory, none⟩ := by
      rw [hk, view, hunlink.1]
      rfl
    rw [hview]
    exact .unlink
  · have hview : { s with files := s.files.unlink (s.disk.unlinks r.imgid r.mip) }.view k =
        s.view k := by
      rw [view, hunlink.2 k hk]
      rfl
    rw [hview]
    exact .refl _

theorem Sound.advance (i : Fin n) (writes : EntryRef → Bool)
    (halone : s.RemovesAlone (.advance i writes)) : (s.advance i writes).Sound := by
  cases hcall : s.calls i with
  | idle =>
    rw [Thumbnails.advance, hcall]
    exact h
  | testing r => exact h.advance_testing hcall writes halone
  | invalidating r ref => exact h.advance_invalidating hcall writes
  | removing r => exact h.advance_removing hcall writes
  | unlinking r => exact h.advance_unlinking hcall writes

theorem Sound.startRemoval (i : Fin n) {imgid : UInt32} (mip : MipmapSize)
    (hpos : 0 < imgid) (himgid : imgid ≤ 0x10000000) : (s.startRemoval i imgid mip).Sound := by
  unfold Thumbnails.startRemoval Thumbnails.outside
  split
  next => exact h
  next hmip =>
    split
    next =>
      have hmoves : Moves (· ≠ i) s s :=
        ⟨h.consistent, fun _ _ => .refl _, Nat.le_refl _, fun _ _ _ _ => id, fun _ _ _ => .inl⟩
      refine h.setCall hmoves rfl ?_ fun _ => .inl
      exact ⟨⟨hpos, himgid, UInt32.not_lt.mp hmip⟩, Nat.le_refl _⟩
    next => exact h

theorem Sound.draw (ref : EntryRef) (width height : UInt32) : (s.draw ref width height).Sound := by
  have hstep := fun k => viewStep_draw (s := s) (k := k) ref width height
  revert hstep
  unfold Thumbnails.draw
  dsimp only
  split
  · intro hstep
    exact h.of_moves_same ⟨h.consistent, fun k _ => hstep k, Nat.le_succ _, fun _ _ _ _ => id,
      fun _ _ _ => .inl⟩ rfl rfl
  · exact fun _ => h

theorem Sound.step (setup : CacheSetup) (e : ThumbnailEvent n)
    (halone : s.RemovesAlone e) : (thumbnailStep setup s e).Sound := by
  have hc := h.consistent
  cases e with
  | get i key mode cost readable writes =>
    have hmoves := moves_get hc setup i key mode cost readable writes halone
    apply h.outside i (hmoves.mono fun _ _ => trivial)
    all_goals
      unfold Thumbnails.get
      dsimp only
      split <;> rfl
  | testget i key mode =>
    exact h.outside i (moves_withCache hc (hc.testget _ _ _) (shrinks_testget _ _ _ _)
      (fun _ _ => hc.keepsWritten_testget _ _ _) _) rfl rfl
  | release i ref =>
    exact h.outside i (moves_withCache hc (hc.release ref i) (.refl s.cache)
      (fun _ hj => keepsWritten_release (Fin.val_ne_of_ne hj) ref) _) rfl rfl
  | demoting ref value =>
    exact h.of_moves_same (moves_withCache hc (hc.demoting ref value) (.refl s.cache)
      (fun _ _ => keepsWritten_demoting ref value) _) rfl rfl
  | draw ref width height => exact h.draw ref width height
  | evict key writes =>
    exact h.of_moves_same (moves_withCache hc (hc.remove key) (shrinks_remove _ _)
      (fun _ _ => (hc.keepsGuarded_remove key).keepsWritten) writes) rfl rfl
  | gc fillRatio writes =>
    exact h.of_moves_same (moves_withCache hc (hc.gc _ fillRatio) (hc.shrinks_gc _ fillRatio)
      (fun _ _ => (hc.keepsGuarded_gc _ fillRatio).keepsWritten) writes) rfl rfl
  | settings backend full =>
    exact h.of_moves_same ⟨hc, fun _ _ => .refl _, Nat.le_refl _, fun _ _ _ _ => id,
      fun _ _ _ => .inl⟩ rfl rfl
  | removeAtSize i imgid mip => exact h.startRemoval i mip halone.1 halone.2
  | advance i writes => exact h.advance i writes halone

end

end Thumbnails

-- The cache of a library with some files on disk, before any lookup.
def Thumbnails.init (n : Nat) (disk : DiskCache) (files : Files) (generated : Nat) :
    Thumbnails n where
  cache := dtCacheInit
  buffers _ := ⟨⟨0, 0, none⟩, false, false⟩
  disk := disk
  files := files
  generated := generated
  calls _ := .idle
  removed := []

/-- Where every removal is alone with its thumbnail, what was there before it does not come back. -/
theorem thumbnailStep_staysRemoved {n : Nat} (setup : CacheSetup) (disk : DiskCache) (files : Files)
    (generated : Nat) (es : List (ThumbnailEvent n))
    (halone : AllSteps (thumbnailStep setup) Thumbnails.RemovesAlone
      (.init n disk files generated) es) :
    AllStates (thumbnailStep setup) Thumbnails.StaysRemoved (.init n disk files generated) es := by
  have hinit : (Thumbnails.init n disk files generated).Sound :=
    ⟨Consistent.init, fun _ => trivial, fun _ hr => absurd hr List.not_mem_nil⟩
  exact (allStates_of_allSteps (fun _ e h => h.step setup e) hinit halone).mono
    fun _ h => h.staysRemoved

-- The smallest thumbnail of the first image is generated and removed; a lookup generates it again.
def removedAlone : List (ThumbnailEvent 4) :=
  [.get 0 0 .read 1 true fun _ => true, .draw 0 180 110, .release 0 0, .removeAtSize 0 1 0,
    .advance 0 fun _ => true, .advance 0 fun _ => true, .advance 0 fun _ => true,
    .get 1 0 .read 1 true fun _ => true, .draw 1 180 110, .release 1 1]

theorem thumbnailStep_staysRemoved_alone :
    AllSteps (thumbnailStep sampleQuota) Thumbnails.RemovesAlone
      (.init 4 backedLibrary (fun _ => none) 0) removedAlone ∧
    AllStates (thumbnailStep sampleQuota) Thumbnails.StaysRemoved
      (.init 4 backedLibrary (fun _ => none) 0) removedAlone :=
  have halone : AllSteps (thumbnailStep sampleQuota) Thumbnails.RemovesAlone
      (.init 4 backedLibrary (fun _ => none) 0) removedAlone := by decide +kernel
  ⟨halone,
    thumbnailStep_staysRemoved sampleQuota backedLibrary (fun _ => none) 0 removedAlone halone⟩

-- The other thread reads the thumbnail while it is removed.
def removedWhileRead : List (ThumbnailEvent 4) :=
  [.get 0 0 .read 1 true fun _ => true, .draw 0 180 110, .release 0 0,
    .get 1 0 .read 1 true fun _ => true, .removeAtSize 0 1 0, .advance 0 fun _ => true,
    .advance 0 fun _ => true]

theorem removedWhileRead_stays :
    ¬ AllStates (thumbnailStep sampleQuota) Thumbnails.StaysRemoved
      (.init 4 backedLibrary (fun _ => none) 0) removedWhileRead := by
  intro h
  have hremoved : (removedWhileRead.foldl (thumbnailStep sampleQuota)
      (.init 4 backedLibrary (fun _ => none) 0)).removed = [⟨1, 0, 1⟩] := by decide +kernel
  have hfound : (removedWhileRead.foldl (thumbnailStep sampleQuota)
      (.init 4 backedLibrary (fun _ => none) 0)).cache.hashtable 0 = some 0 := by decide +kernel
  have hpicture : ((removedWhileRead.foldl (thumbnailStep sampleQuota)
      (.init 4 backedLibrary (fun _ => none) 0)).buffers 0).picture = some 0 := by decide +kernel
  have hold := (h.last ⟨1, 0, 1⟩ (by rw [hremoved]; exact List.mem_cons_self)).1 0 hfound 0 hpicture
  cases hold

end DTLite
