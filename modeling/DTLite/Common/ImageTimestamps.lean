import DTLite.Common.ImageCache
import DTLite.Common.MipmapCache

/-!
# Setting timestamps

The functions that set a timestamp of an image get it from the cache themselves, and hand the
library's write mode over where the mode of the lock belongs.
-/

namespace DTLite

open Reasoning Function

inductive Stamp where
  | setChange (now : Int)
  | unsetChange
  | setExport (now : Int)
  | setPrint (now : Int)
deriving DecidableEq, Repr

def Stamp.apply : Stamp → Timestamps → Timestamps
  | .setChange now, ts => { ts with changeTimestamp := now }
  | .unsetChange, ts => { ts with changeTimestamp := -1 }
  | .setExport now, ts => { ts with exportTimestamp := now }
  | .setPrint now, ts => { ts with printTimestamp := now }

/-- `dt_image_cache_set_change_timestamp` and the others, with the image that they have got. -/
structure StampCall where
  imgid : Int32
  ref : EntryRef
  stamp : Stamp
deriving DecidableEq, Repr

-- The mode is `DT_IMAGE_CACHE_SAFE`, which is 0 and not `'w'`.
def stampMode : LockMode := .read

/-- A thread is in a timestamp function from its get to its write release. -/
structure StampSystem (n : Nat) where
  images : ImageCache
  stamping : Fin n → Option StampCall

inductive StampEvent (n : Nat) where
  | get (i : Fin n) (imgid : Int32) (mode : LockMode)
  | testget (i : Fin n) (imgid : Int32) (mode : LockMode)
  | readRelease (i : Fin n) (ref : EntryRef)
  | writeRelease (i : Fin n) (ref : EntryRef)
  | stamp (i : Fin n) (imgid : Int32) (stamp : Stamp)
  | modify (i : Fin n)
  | finish (i : Fin n)
  | remove (imgid : Int32)
  -- a row of `main.images` comes, goes or is changed
  | row (imgid : Int32) (timestamps : Option Timestamps)
deriving DecidableEq, Repr

namespace StampSystem

variable {n : Nat}

def init (n : Nat) (rows : Int32 → Option Timestamps) : StampSystem n where
  images := ⟨dtCacheInit, fun _ => dtImageInit, rows⟩
  stamping _ := none

-- What a thread does that is not in a timestamp function.
def outside (s : StampSystem n) (i : Fin n) (images : ImageCache) : StampSystem n :=
  if s.stamping i = none then { s with images := images } else s

def start (setup : ImageSetup) (s : StampSystem n) (i : Fin n) (imgid : Int32) (stamp : Stamp) :
    StampSystem n :=
  if s.stamping i = none ∧ 0 < imgid then
    let got := s.images.get setup imgid.toUInt32 stampMode i
    { images := got.1
      stamping := update s.stamping i (got.2.map fun ref => ⟨imgid, ref, stamp⟩) }
  else s

-- `img->change_timestamp = …`
def modify (s : StampSystem n) (i : Fin n) : StampSystem n :=
  match s.stamping i with
  | some call =>
      let img := s.images.images call.ref
      let img := { img with timestamps := call.stamp.apply img.timestamps }
      { s with images.images := update s.images.images call.ref img }
  | none => s

def finish (s : StampSystem n) (i : Fin n) : StampSystem n :=
  match s.stamping i with
  | some call =>
      { images := dtImageCacheWriteRelease s.images call.ref i
        stamping := update s.stamping i none }
  | none => s

end StampSystem

def stampStep {n : Nat} (setup : ImageSetup) (s : StampSystem n) : StampEvent n → StampSystem n
  | .get i imgid mode => s.outside i (dtImageCacheGet setup s.images imgid mode i).1
  | .testget i imgid mode => s.outside i (dtImageCacheTestget s.images imgid mode i).1
  | .readRelease i ref => s.outside i (dtImageCacheReadRelease s.images ref i)
  | .writeRelease i ref => s.outside i (dtImageCacheWriteRelease s.images ref i)
  | .stamp i imgid stamp => s.start setup i imgid stamp
  | .modify i => s.modify i
  | .finish i => s.finish i
  | .remove imgid => { s with images.cache := dtCacheRemove s.images.cache imgid.toUInt32 }
  | .row imgid timestamps =>
      { s with images.rows := update s.images.rows imgid timestamps }

namespace StampSystem

variable {n : Nat}

/-- Nobody else has the lock of an image that a timestamp function modifies. -/
def Exclusive (s : StampSystem n) : Prop :=
  ∀ i call, s.stamping i = some call → ∀ t : ThreadId, t ≠ i → ∀ write,
    ¬ (s.images.lockOf call.imgid).Holds t write

/-- A timestamp function finds its image unlocked, and nobody reads an image that one shares. -/
def StampsAlone (s : StampSystem n) : StampEvent n → Prop
  | .stamp _ imgid _ => (s.images.lockOf imgid).isFree = true
  | .get i imgid .read | .testget i imgid .read =>
      ∀ j ≠ i, ∀ call ∈ s.stamping j, call.imgid = imgid → s.images.lockOf imgid = .written j
  | _ => True

instance (s : StampSystem n) : (e : StampEvent n) → Decidable (s.StampsAlone e)
  | .stamp .. => inferInstanceAs (Decidable (_ = _))
  | .get i _ .read | .testget i _ .read => inferInstanceAs (Decidable (∀ j ≠ i, _))
  | .get _ _ .write | .testget _ _ .write | .readRelease .. | .writeRelease .. | .modify _
  | .finish _ | .remove _ | .row .. => inferInstanceAs (Decidable True)

end StampSystem

def StampCall.Alone (call : StampCall) (t : ThreadId) (entry : CacheEntry) : Prop :=
  entry.key = call.imgid.toUInt32 ∧ entry.lock.OnlyHolds t

variable {call : StampCall} {entry : CacheEntry} {t : ThreadId}

theorem StampCall.Alone.isFree (h : call.Alone t entry) : entry.lock.isFree = false := h.2.isFree

theorem StampCall.Alone.unlock {t u : ThreadId} (hne : t ≠ u) (h : call.Alone t entry) :
    call.Alone t { entry with lock := entry.lock.unlock u } := ⟨h.1, h.2.unlock hne⟩

theorem toUInt32_inj {a b : Int32} (h : a.toUInt32 = b.toUInt32) : a = b :=
  congrArg UInt32.toInt32 h

namespace ImageCache

variable {c : ImageCache} {setup : ImageSetup}

theorem at_get_stamp (hc : c.cache.Consistent) {imgid : Int32} {i : ThreadId}
    (hfree : (c.lockOf imgid).isFree = true) {ref : EntryRef}
    (hget : (c.get setup imgid.toUInt32 stampMode i).2 = some ref) (stamp : Stamp) :
    (c.get setup imgid.toUInt32 stampMode i).1.cache.At ref
      (StampCall.Alone ⟨imgid, ref, stamp⟩ i) := by
  obtain ⟨found, c', hfound, hlock, heq⟩ | heq | ⟨-, c₁, cost, -, -, -, heq⟩ :=
    hc.get_cases setup.cacheSetup imgid.toUInt32 stampMode i setup.imageSize
  all_goals
    simp only [ImageCache.get, heq] at hget ⊢
    cases hget
  · obtain ⟨hmem, hkey⟩ := (hc.lookup _ _).mp hfound
    refine ⟨(Cache.sameFixed_lockEntry hmem hlock).lru.mem_iff.mpr hmem, ?_⟩
    obtain ⟨entry, lock, hentry, htry, rfl⟩ := Cache.lockEntry_eq_some hlock
    rw [lockOf_of_entry hfound hentry] at hfree
    rw [Cache.keyOf, hentry] at hkey
    exact ⟨_, update_self _ _ _, Option.some.inj hkey,
      RwLock.onlyHolds_tryRdlock hfree htry⟩
  · have hlock : (if stampMode = .write ∨ setup.cacheSetup.allocates then RwLock.written i
        else .shared [i]) = .written i := if_pos (.inr rfl)
    exact ⟨List.mem_append_right _ (List.mem_singleton_self _), _, update_self _ _ _, rfl,
      .inl hlock⟩

end ImageCache

namespace StampSystem

variable {n : Nat} {s : StampSystem n}

/-- What the timestamp functions rely on. -/
structure Sound (s : StampSystem n) : Prop where
  consistent : s.images.cache.Consistent
  alone : ∀ i call, s.stamping i = some call → s.images.cache.At call.ref (call.Alone i)

theorem Sound.init (rows : Int32 → Option Timestamps) : (init n rows).Sound :=
  ⟨Cache.Consistent.init, fun _ _ h => absurd h.symm (Option.some_ne_none _)⟩

theorem Sound.found (h : s.Sound) {i : Fin n}
    (hcall : s.stamping i = some call) :
    ∃ entry, s.images.lockOf call.imgid = entry.lock ∧ call.Alone i entry := by
  obtain ⟨hmem, entry, hentry, halone⟩ := h.alone i call hcall
  have hkey : s.images.cache.keyOf call.ref = some call.imgid.toUInt32 := by
    rw [Cache.keyOf, hentry, ← halone.1]
    rfl
  have hfound := (h.consistent.lookup _ _).mpr ⟨hmem, hkey⟩
  exact ⟨entry, ImageCache.lockOf_of_entry hfound hentry, halone⟩

theorem Sound.exclusive (h : s.Sound) : s.Exclusive := by
  intro i call hcall t hne write hholds
  obtain ⟨entry, hlock, halone⟩ := h.found hcall
  rw [hlock] at hholds
  exact hne (halone.2.eq hholds)

/-! ## One step -/

variable {imgid : Int32} {mode : LockMode}

theorem Sound.tryLock_eq_none (h : s.Sound) {j : Fin n}
    (hfound : s.images.cache.hashtable imgid.toUInt32 = some call.ref)
    (hentry : s.images.cache.entries call.ref = some entry) (halone : call.Alone j entry)
    (hread : mode = .read → call.imgid = imgid → s.images.lockOf imgid = .written j.val) :
    mode.tryLock entry.lock t = none := by
  cases mode with
  | write => exact halone.2.tryWrlock
  | read =>
    have hkey := ((h.consistent.lookup _ _).mp hfound).2
    rw [Cache.keyOf, hentry] at hkey
    have himgid : call.imgid = imgid := toUInt32_inj (halone.1.symm.trans (Option.some.inj hkey))
    have hlock := (ImageCache.lockOf_of_entry hfound hentry).symm.trans (hread rfl himgid)
    rw [hlock]
    rfl

theorem Sound.outside (h : s.Sound) (i : Fin n) {images : ImageCache}
    (hc : images.cache.Consistent)
    (halone : ∀ j ≠ i, ∀ call, s.stamping j = some call → images.cache.At call.ref (call.Alone j)) :
    (s.outside i images).Sound := by
  unfold StampSystem.outside
  split
  next hidle =>
    refine ⟨hc, fun j call hcall => halone j ?_ call hcall⟩
    rintro rfl
    cases hidle.symm.trans hcall
  next => exact h

theorem Sound.release_alone (h : s.Sound) (i : Fin n) (ref : EntryRef) {cache : Cache}
    (hcache : cache = s.images.cache ∨ cache = dtCacheRelease s.images.cache ref i) :
    cache.Consistent ∧
      ∀ j ≠ i, ∀ call, s.stamping j = some call → cache.At call.ref (call.Alone j) := by
  rcases hcache with rfl | rfl
  · exact ⟨h.consistent, fun j _ => h.alone j⟩
  · refine ⟨h.consistent.release ref i, ?_⟩
    intro j hne call hcall
    exact (h.alone j call hcall).release (fun _ => .unlock (Fin.val_ne_of_ne hne)) ref

theorem readRelease_cache (c : ImageCache) (ref : EntryRef) (t : ThreadId) :
    (dtImageCacheReadRelease c ref t).cache = c.cache ∨
      (dtImageCacheReadRelease c ref t).cache = dtCacheRelease c.cache ref t := by
  unfold dtImageCacheReadRelease
  split
  · exact .inl rfl
  · exact .inr rfl

theorem writeRelease_cache (c : ImageCache) (ref : EntryRef) (t : ThreadId) :
    (dtImageCacheWriteRelease c ref t).cache = c.cache ∨
      (dtImageCacheWriteRelease c ref t).cache = dtCacheRelease c.cache ref t := by
  unfold dtImageCacheWriteRelease
  dsimp only
  split
  · exact .inl rfl
  · exact .inr rfl

section

variable (h : s.Sound)
include h

theorem Sound.get_alone (setup : ImageSetup) (i : Fin n)
    (hread : mode = .read → ∀ j ≠ i, ∀ call ∈ s.stamping j,
      call.imgid = imgid → s.images.lockOf imgid = .written j.val) :
    ∀ j ≠ i, ∀ call, s.stamping j = some call →
      (s.images.get setup imgid.toUInt32 mode i).1.cache.At call.ref (call.Alone j) := by
  intro j hne call hcall
  apply h.consistent.at_get_other (h.alone j call hcall) fun _ => StampCall.Alone.isFree
  exact fun hfound entry hentry halone => h.tryLock_eq_none hfound hentry halone
    fun hmode => hread hmode j hne call hcall

theorem Sound.start (setup : ImageSetup) (i : Fin n) (stamp : Stamp)
    (hfree : (s.images.lockOf imgid).isFree = true) : (s.start setup i imgid stamp).Sound := by
  unfold StampSystem.start
  split
  next hidle =>
    refine ⟨h.consistent.get _ _ _ _ _, ?_⟩
    apply (forall_update_iff s.stamping fun j state => ∀ call, state = some call →
      (s.images.get setup imgid.toUInt32 stampMode i).1.cache.At call.ref (call.Alone j)).mpr
    constructor
    · intro call hcall
      obtain ⟨ref, hget, rfl⟩ := Option.map_eq_some_iff.mp hcall
      exact ImageCache.at_get_stamp h.consistent hfree hget stamp
    · -- an image that another timestamp function has is not free
      apply h.get_alone setup i
      intro _ j _ call hcall himgid
      obtain ⟨entry, hlock, halone⟩ := h.found hcall
      rw [← himgid, hlock, halone.isFree] at hfree
      cases hfree
  next => exact h

theorem Sound.finish (i : Fin n) : (s.finish i).Sound := by
  unfold StampSystem.finish
  split
  next call hcall =>
    obtain ⟨hc, halone⟩ := h.release_alone i call.ref (writeRelease_cache s.images call.ref i)
    refine ⟨hc, ?_⟩
    apply (forall_update_iff s.stamping fun j state => ∀ call', state = some call' →
      (dtImageCacheWriteRelease s.images call.ref i).cache.At call'.ref (call'.Alone j)).mpr
    exact ⟨fun _ h' => absurd h'.symm (Option.some_ne_none _), halone⟩
  next => exact h

theorem Sound.modify (i : Fin n) : (s.modify i).Sound := by
  unfold StampSystem.modify
  split
  · exact ⟨h.consistent, h.alone⟩
  · exact h

theorem Sound.step (setup : ImageSetup) (e : StampEvent n)
    (halone : s.StampsAlone e) :
    (stampStep setup s e).Sound := by
  cases e with
  | get i imgid mode =>
    show (s.outside i (dtImageCacheGet setup s.images imgid mode i).1).Sound
    rw [dtImageCacheGet]
    split
    · exact h.outside i h.consistent fun j _ => h.alone j
    · apply h.outside i (h.consistent.get _ _ _ _ _) (h.get_alone setup i _)
      rintro rfl
      exact halone
  | testget i imgid mode =>
    show (s.outside i (dtImageCacheTestget s.images imgid mode i).1).Sound
    rw [dtImageCacheTestget]
    split
    · exact h.outside i h.consistent fun j _ => h.alone j
    · refine h.outside i (h.consistent.testget imgid.toUInt32 mode i) fun j hne call hcall => ?_
      apply h.consistent.at_testget_other (h.alone j call hcall)
      intro hfound entry hentry hentryAlone
      apply h.tryLock_eq_none hfound hentry hentryAlone
      rintro rfl
      exact halone j hne call hcall
  | readRelease i ref =>
    obtain ⟨hc, hothers⟩ := h.release_alone i ref (readRelease_cache s.images ref i)
    exact h.outside i hc hothers
  | writeRelease i ref =>
    obtain ⟨hc, hothers⟩ := h.release_alone i ref (writeRelease_cache s.images ref i)
    exact h.outside i hc hothers
  | stamp i imgid stamp => exact h.start setup i stamp halone
  | modify i => exact h.modify i
  | finish i => exact h.finish i
  | remove imgid =>
    refine ⟨h.consistent.remove _, fun j call hcall => ?_⟩
    exact (h.alone j call hcall).keepsGuarded (fun _ => StampCall.Alone.isFree)
      (h.consistent.keepsGuarded_remove _)
  | row imgid timestamps => exact ⟨h.consistent, h.alone⟩

end

end StampSystem

/-- As long as the timestamp functions meet unlocked images and nobody reads an image that one of
them shares, they have their images for themselves. -/
theorem stampStep_exclusive {n : Nat} (setup : ImageSetup) (rows : Int32 → Option Timestamps)
    (es : List (StampEvent n))
    (halone : AllSteps (stampStep setup) StampSystem.StampsAlone (StampSystem.init n rows) es) :
    AllStates (stampStep setup) StampSystem.Exclusive (StampSystem.init n rows) es :=
  (allStates_of_allSteps (fun _ e h => h.step setup e) (StampSystem.Sound.init rows) halone).mono
    fun _ h => h.exclusive

def orderedStamps : List (StampEvent 2) :=
  [.stamp 0 1 (.setExport 5), .get 1 1 .read, .modify 0, .finish 0, .get 1 1 .read,
    .readRelease 1 0, .stamp 0 1 (.setChange 6), .modify 0, .finish 0]

theorem stampStep_exclusive_ordered :
    AllSteps (stampStep roomySetup) StampSystem.StampsAlone (.init 2 oneImage.rows) orderedStamps ∧
      AllStates (stampStep roomySetup) StampSystem.Exclusive (.init 2 oneImage.rows)
        orderedStamps :=
  have halone : AllSteps (stampStep roomySetup) StampSystem.StampsAlone (.init 2 oneImage.rows)
      orderedStamps := by decide +kernel
  ⟨halone, stampStep_exclusive roomySetup oneImage.rows orderedStamps halone⟩

-- The second thread reads the image, and the first one sets its timestamp meanwhile.
def overlappingStamps : List (StampEvent 2) :=
  [.get 0 1 .read, .readRelease 0 0, .get 1 1 .read, .stamp 0 1 (.setChange 5)]

theorem overlappingStamps_not_exclusive :
    ¬ AllStates (stampStep roomySetup) StampSystem.Exclusive (.init 2 oneImage.rows)
      overlappingStamps := by
  intro h
  have hstamping : (overlappingStamps.foldl (stampStep roomySetup)
      (.init 2 oneImage.rows)).stamping 0 = some ⟨1, 0, .setChange 5⟩ := by decide +kernel
  have hlock : (overlappingStamps.foldl (stampStep roomySetup)
      (.init 2 oneImage.rows)).images.lockOf 1 = .shared [0, 1] := by decide +kernel
  apply h.last 0 _ hstamping 1 (by decide) false
  rw [hlock]
  exact List.mem_cons_of_mem 0 List.mem_cons_self

end DTLite
