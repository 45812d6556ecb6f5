import DTLite.Common.Cache

/-!
# Blocking gets of the mipmap cache

A blocking get for reading fills a new entry under a write lock, and then gives that lock up and
takes a read lock instead.  In between the entry is only protected by its flag `_lock_demoting`,
which every call sets and clears.
-/

namespace DTLite

open Reasoning Function Cache

/-- What a call of `dt_mipmap_cache_get` got first. -/
structure MipmapCall where
  key : UInt32
  ref : EntryRef
  -- the entry is new, so it is locked for writing and generated by this call
  write : Bool
deriving DecidableEq, Repr

/-- Where a thread is. -/
inductive CallState where
  | idle
  -- `dt_mipmap_cache_get`, blocking, for reading
  | getting (key : UInt32)
  | locked (call : MipmapCall)
  | marked (call : MipmapCall)
  | released (call : MipmapCall)
  | reacquired (call : MipmapCall) (ref : EntryRef)
  -- it has returned and its caller has not released the buffer
  | returned (call : MipmapCall) (ref : EntryRef)
  -- `dt_mipmap_cache_remove_at_size`
  | testing (key : UInt32)
  | invalidating (key : UInt32) (ref : EntryRef)
  -- and `dt_mipmap_cache_evict_at_size`
  | removing (key : UInt32)
deriving DecidableEq, Repr

variable {state : CallState} (setup : CacheSetup)

open CallState

/-- The next step of a thread; a get or a removal that has to start again stays where it is. -/
def CallState.advance (c : Cache) (t : ThreadId) (cost : UInt64) : CallState → Cache × CallState
  | .idle => (c, .idle)
  | .getting key =>
      let got := dtCacheGet setup c key .read t cost
      (got.1, match got.2 with
        | some ref => .locked ⟨key, ref, (c.hashtable key).isNone⟩
        | none => .getting key)
  | .locked call => (setLockDemoting c call.ref true, .marked call)
  -- drop the write lock
  | .marked call => (dtCacheRelease c call.ref t, .released call)
  -- get a read lock
  | .released call =>
      let got := dtCacheGet setup c call.key .read t cost
      (got.1, match got.2 with
        | some ref => .reacquired call ref
        | none => .released call)
  | .reacquired call ref => (setLockDemoting c ref false, .returned call ref)
  -- `dt_mipmap_cache_release`
  | .returned _ ref => (dtCacheRelease c ref t, .idle)
  | .testing key =>
      let got := dtCacheTestget c key .write t
      (got.1, match got.2 with
        | some ref => .invalidating key ref
        | none => .idle)
  | .invalidating key ref => (dtCacheRelease c ref t, .removing key)
  | .removing key =>
      let c' := dtCacheRemove c key
      (c', if (c'.hashtable key).isNone then .idle else .removing key)

structure MipmapSystem (n : Nat) where
  cache : Cache
  calls : Fin n → CallState

open MipmapSystem

def MipmapSystem.init (n : Nat) : MipmapSystem n where
  cache := dtCacheInit
  calls _ := .idle

inductive MipmapEvent (n : Nat) where
  | get (i : Fin n) (key : UInt32)
  | removeAtSize (i : Fin n) (key : UInt32)
  | evictAtSize (i : Fin n) (key : UInt32)
  | advance (i : Fin n) (cost : UInt64)
  | gc (fillRatio : Rat)
deriving DecidableEq, Repr

namespace MipmapSystem

variable {n : Nat}

def start (s : MipmapSystem n) (i : Fin n) (call : CallState) : MipmapSystem n :=
  if s.calls i = .idle then { s with calls := update s.calls i call } else s

end MipmapSystem

-- The caches that `dt_mipmap_cache_init` sets up have an allocate callback.
def mipmapSetup : CacheSetup := { setup with allocates := true }

def mipmapStep {n : Nat} (setup : CacheSetup) (s : MipmapSystem n) :
    MipmapEvent n → MipmapSystem n
  | .get i key => s.start i (.getting key)
  | .removeAtSize i key => s.start i (.testing key)
  | .evictAtSize i key => s.start i (.removing key)
  | .advance i cost =>
      let next := (s.calls i).advance (mipmapSetup setup) s.cache i cost
      ⟨next.1, update s.calls i next.2⟩
  | .gc fillRatio => { s with cache := dtCacheGc (mipmapSetup setup) s.cache fillRatio }

/-! ## What a call relies on -/

/-- A thread has the lock of an entry, or the entry is being demoted. -/
def CacheEntry.GuardedFor (t : ThreadId) (entry : CacheEntry) : Prop :=
  (∃ write, entry.lock.Holds t write) ∨ entry.lockDemoting = true

/-- What a thread has of an entry, it still has. -/
structure CacheEntry.KeptFor (t : ThreadId) (entry entry' : CacheEntry) : Prop where
  key : entry'.key = entry.key
  demoting : entry.lockDemoting = true → entry'.lockDemoting = true
  holds : ∀ write, entry.lock.Holds t write → entry'.lock.Holds t write

theorem CacheEntry.KeptFor.refl (t : ThreadId) (entry : CacheEntry) : entry.KeptFor t entry :=
  ⟨rfl, id, fun _ => id⟩

variable {mode : LockMode} {l l' : RwLock ThreadId} {t : ThreadId}

theorem LockMode.holds_tryLock
    (hlock : mode.tryLock l t = some l') : l'.Holds t (mode = .write) := by
  cases mode with
  | read => exact RwLock.holds_tryRdlock hlock
  | write => exact RwLock.holds_tryWrlock hlock

variable {u : ThreadId}

theorem Reasoning.RwLock.Holds.tryLock {write : Bool}
    (h : l.Holds t write) (hlock : mode.tryLock l u = some l') : l'.Holds t write := by
  cases mode with
  | read => exact h.tryRdlock hlock
  | write => cases h.tryWrlock.symm.trans hlock

namespace Cache

variable {c c' : Cache} {t : ThreadId}

/-- The entry is in the cache and it is like this. -/
def At (c : Cache) (ref : EntryRef) (P : CacheEntry → Prop) : Prop :=
  ref ∈ c.lru ∧ ∃ entry, c.entries ref = some entry ∧ P entry

/-- What a thread has of the entries, it still has. -/
def KeepsFor (t : ThreadId) (c c' : Cache) : Prop :=
  ∀ ref entry, ref ∈ c.lru → c.entries ref = some entry → entry.GuardedFor t →
    c'.At ref fun entry' => entry.KeptFor t entry'

variable {ref : EntryRef} {P Q : CacheEntry → Prop} {f : CacheEntry → CacheEntry}

theorem At.keepsFor (h : c.At ref P) (hkeeps : KeepsFor t c c')
    (hguarded : ∀ entry, P entry → entry.GuardedFor t)
    (hP : ∀ entry entry', entry.KeptFor t entry' → P entry → Q entry') : c'.At ref Q := by
  obtain ⟨hmem, entry, hentry, hPentry⟩ := h
  obtain ⟨hmem', entry', hentry', hkept⟩ := hkeeps ref entry hmem hentry (hguarded entry hPentry)
  exact ⟨hmem', entry', hentry', hP entry entry' hkept hPentry⟩

theorem At.and (hP : c.At ref P) (hQ : c.At ref Q) : c.At ref fun entry => P entry ∧ Q entry := by
  obtain ⟨hmem, entry, hentry, hPentry⟩ := hP
  obtain ⟨-, entry', hentry', hQentry⟩ := hQ
  cases hentry.symm.trans hentry'
  exact ⟨hmem, entry, hentry, hPentry, hQentry⟩

theorem At.setEntry {ref' : EntryRef} (h : c.At ref P)
    (hP : ∀ entry, P entry → ref ≠ ref' → Q entry)
    (hf : ∀ entry, P entry → ref = ref' → Q (f entry)) :
    (c.setEntry ref' ((c.entries ref').map f)).At ref Q := by
  obtain ⟨hmem, entry, hentry, hPentry⟩ := h
  refine ⟨hmem, ?_⟩
  show ∃ entry', update c.entries ref' _ ref = some entry' ∧ Q entry'
  by_cases hne : ref = ref'
  · subst hne
    rw [update_self, hentry]
    exact ⟨f entry, rfl, hf entry hPentry rfl⟩
  · rw [update_of_ne hne]
    exact ⟨entry, hentry, hP entry hPentry hne⟩

theorem keepsFor_setEntry (hf : ∀ entry : CacheEntry, entry.KeptFor t (f entry)) :
    KeepsFor t c (c.setEntry ref ((c.entries ref).map f)) := by
  intro ref' entry hmem hentry _
  have hat : c.At ref' (· = entry) := ⟨hmem, entry, hentry, rfl⟩
  apply hat.setEntry
  · rintro _ rfl _
    exact .refl t _
  · rintro _ rfl _
    exact hf _

theorem KeepsGuarded.keepsFor (h : KeepsGuarded c c') (t : ThreadId) : KeepsFor t c c' := by
  intro ref entry hmem hentry hguarded
  obtain ⟨hmem', hentry'⟩ := h ref entry hmem hentry
    (hguarded.imp_left fun ⟨_, hholds⟩ => RwLock.isFree_eq_false_of_holds hholds)
  exact ⟨hmem', entry, hentry', .refl t entry⟩

theorem keepsFor_lockEntry (href : ref ∈ c.lru) (hlock : c.lockEntry ref mode u = some c') :
    KeepsFor t c c' := by
  obtain ⟨locked, lock, hlocked, htry, rfl⟩ := lockEntry_eq_some hlock
  intro ref' entry hmem hentry _
  refine ⟨(sameFixed_lockEntry href hlock).lru.mem_iff.mpr hmem, ?_⟩
  show ∃ entry', update c.entries ref _ ref' = some entry' ∧ _
  by_cases hne : ref' = ref
  · subst hne
    cases hlocked.symm.trans hentry
    rw [update_self]
    exact ⟨_, rfl, rfl, id, fun _ hholds => hholds.tryLock htry⟩
  · rw [update_of_ne hne]
    exact ⟨entry, hentry, .refl t entry⟩

theorem at_lockEntry (href : ref ∈ c.lru) (hlock : c.lockEntry ref mode t = some c') :
    c'.At ref fun entry => entry.lock.Holds t (mode = .write) ∧ c.keyOf ref = some entry.key := by
  obtain ⟨entry, lock, hentry, htry, rfl⟩ := lockEntry_eq_some hlock
  refine ⟨(sameFixed_lockEntry href hlock).lru.mem_iff.mpr href, { entry with lock }, ?_, ?_, ?_⟩
  · exact update_self _ _ _
  · exact LockMode.holds_tryLock htry
  · rw [keyOf, hentry]
    rfl

theorem at_insert (key : UInt32) (mode : LockMode) (cost : UInt64) :
    (c.insert (mipmapSetup setup) key mode t cost).At c.next fun entry =>
      entry.lock.Holds t true ∧ entry.key = key := by
  refine ⟨List.mem_append_right _ (List.mem_singleton_self _), _, update_self _ _ _, ?_⟩
  have hlock : (if mode = .write ∨ (mipmapSetup setup).allocates then RwLock.written t
      else .shared [t]) = .written t := if_pos (.inr rfl)
  exact ⟨congrArg (RwLock.Holds t · true) hlock ▸ rfl, rfl⟩

theorem Consistent.keepsFor_get (h : c.Consistent) (setup : CacheSetup) (key : UInt32)
    (mode : LockMode) (u : ThreadId) (cost : UInt64) :
    KeepsFor t c (dtCacheGet setup c key mode u cost).1 := by
  obtain ⟨ref, c', href, hlock, heq⟩ | heq | ⟨-, c₁, cost', h₁, -, hkeeps, heq⟩ :=
    h.get_cases setup key mode u cost
  all_goals rw [heq]
  · exact keepsFor_lockEntry ((h.lookup key ref).mp href).1 hlock
  · exact (KeepsGuarded.refl c).keepsFor t
  · exact (hkeeps.trans (h₁.keepsGuarded_insert setup key mode u cost')).keepsFor t

variable {key : UInt32}

theorem Consistent.at_get (h : c.Consistent) {setup : CacheSetup} {cost : UInt64}
    (hget : (dtCacheGet (mipmapSetup setup) c key .read t cost).2 = some ref) :
    ((dtCacheGet (mipmapSetup setup) c key .read t cost).1.At ref fun entry =>
      entry.lock.Holds t (c.hashtable key).isNone ∧ entry.key = key) ∧
    ∀ found, c.hashtable key = some found → ref = found := by
  obtain ⟨found, c', hfound, hlock, heq⟩ | heq | ⟨hnone, c₁, cost', -, -, -, heq⟩ :=
    h.get_cases (mipmapSetup setup) key .read t cost
  all_goals rw [heq] at hget ⊢
  · cases hget
    obtain ⟨hmem, hkey⟩ := (h.lookup key ref).mp hfound
    obtain ⟨hmem', entry, hentry, hholds, hkey'⟩ := at_lockEntry hmem hlock
    rw [hfound]
    exact ⟨⟨hmem', entry, hentry, hholds, Option.some.inj (hkey'.symm.trans hkey)⟩,
      fun _ => Option.some.inj⟩
  · cases hget
  · cases hget
    rw [hnone]
    exact ⟨at_insert setup key .read cost', fun _ hfound =>
      absurd hfound.symm (Option.some_ne_none _)⟩

theorem Consistent.keepsFor_testget (h : c.Consistent) (key : UInt32) (mode : LockMode)
    (u : ThreadId) : KeepsFor t c (dtCacheTestget c key mode u).1 := by
  obtain ⟨ref, c', href, hlock, heq⟩ | heq := dtCacheTestget_cases c key mode u
  all_goals rw [heq]
  · exact keepsFor_lockEntry ((h.lookup key ref).mp href).1 hlock
  · exact (KeepsGuarded.refl c).keepsFor t

theorem keepsFor_release (hne : t ≠ u) (ref : EntryRef) : KeepsFor t c (dtCacheRelease c ref u) :=
  keepsFor_setEntry fun _ => ⟨rfl, id, fun _ hholds => hholds.unlock hne⟩

theorem keepsFor_mark (ref : EntryRef) : KeepsFor t c (setLockDemoting c ref true) :=
  keepsFor_setEntry fun _ => ⟨rfl, fun _ => rfl, fun _ => id⟩

/-! An entry that somebody has locked, whatever the others do -/

section Held

variable {ref : EntryRef} {P : CacheEntry → Prop}

theorem At.keepsGuarded (h : c.At ref P) (hheld : ∀ entry, P entry → entry.lock.isFree = false)
    (hkeeps : KeepsGuarded c c') : c'.At ref P := by
  obtain ⟨hmem, entry, hentry, hP⟩ := h
  obtain ⟨hmem', hentry'⟩ := hkeeps ref entry hmem hentry (.inl (hheld entry hP))
  exact ⟨hmem', entry, hentry', hP⟩

theorem At.lockEntry_ne (h : c.At ref P) {ref' : EntryRef} (hne : ref ≠ ref') (href' : ref' ∈ c.lru)
    (hlock : c.lockEntry ref' mode t = some c') : c'.At ref P := by
  obtain ⟨hmem, entry, hentry, hP⟩ := h
  refine ⟨(sameFixed_lockEntry href' hlock).lru.mem_iff.mpr hmem, entry, ?_, hP⟩
  obtain ⟨locked, lock, -, -, rfl⟩ := lockEntry_eq_some hlock
  exact (update_of_ne hne _ _).trans hentry

theorem Consistent.at_testget_other (hc : c.Consistent) (h : c.At ref P)
    (hlocked : c.hashtable key = some ref → ∀ entry,
      c.entries ref = some entry → P entry → mode.tryLock entry.lock t = none) :
    (dtCacheTestget c key mode t).1.At ref P := by
  obtain ⟨found, c', hfound, hlock, heq⟩ | heq := dtCacheTestget_cases c key mode t
  · rw [heq]
    by_cases hne : ref = found
    · subst hne
      obtain ⟨-, entry, hentry, hP⟩ := h
      obtain ⟨locked, lock, hlocked', htry, -⟩ := lockEntry_eq_some hlock
      cases hentry.symm.trans hlocked'
      exact absurd (htry.symm.trans (hlocked hfound _ hentry hP)) (Option.some_ne_none _)
    · exact h.lockEntry_ne hne ((hc.lookup key found).mp hfound).1 hlock
  · rw [heq]
    exact h

theorem Consistent.at_get_other (hc : c.Consistent) (h : c.At ref P)
    (hheld : ∀ entry, P entry → entry.lock.isFree = false) (setup : CacheSetup)
    (cost : UInt64) (hlocked : c.hashtable key = some ref →
      ∀ entry, c.entries ref = some entry → P entry → mode.tryLock entry.lock t = none) :
    (dtCacheGet setup c key mode t cost).1.At ref P := by
  obtain ⟨found, c', hfound, -, -⟩ | heq | ⟨-, c₁, cost', h₁, -, hkeeps, heq⟩ :=
    hc.get_cases setup key mode t cost
  · have hget : dtCacheGet setup c key mode t cost = dtCacheTestget c key mode t := by
      rw [dtCacheGet, hfound]
    rw [hget]
    exact hc.at_testget_other h hlocked
  · rw [heq]
    exact h
  · rw [heq]
    exact h.keepsGuarded hheld (hkeeps.trans (h₁.keepsGuarded_insert setup key mode t cost'))

theorem At.release (h : c.At ref P)
    (hP : ∀ entry, P entry → P { entry with lock := entry.lock.unlock t }) (ref' : EntryRef) :
    (dtCacheRelease c ref' t).At ref P :=
  h.setEntry (fun _ hentry _ => hentry) fun entry hentry _ => hP entry hentry

end Held

end Cache

/-! ## One step -/

def MipmapCall.Holds (call : MipmapCall) (t : ThreadId) (entry : CacheEntry) : Prop :=
  entry.lock.Holds t call.write ∧ entry.key = call.key

-- The next step of the one clears the flag that the other one needs.
def CallState.takesFlag : CallState → CallState → Bool
  | .reacquired _ ref, .released waiting => waiting.write && waiting.ref == ref
  | _, _ => false

/-- The locks it holds, and the flag where it holds none of an entry that it wrote. -/
def CallState.Relies (c : Cache) (t : ThreadId) : CallState → Prop
  | .locked call => c.At call.ref (call.Holds t)
  | .marked call =>
      c.At call.ref fun entry => call.Holds t entry ∧ (call.write → entry.lockDemoting = true)
  | .released call =>
      call.write → c.At call.ref fun entry => entry.lockDemoting = true ∧ entry.key = call.key
  | .reacquired call ref | .returned call ref =>
      (c.At ref fun entry => ∃ write, entry.lock.Holds t write) ∧ (call.write → ref = call.ref)
  | .invalidating _ ref => c.At ref fun entry => entry.lock.Holds t true
  | .idle | .getting _ | .testing _ | .removing _ => True

namespace CallState

variable {c c' : Cache} {t : ThreadId}

theorem Relies.keepsFor (h : state.Relies c t) (hkeeps : c.KeepsFor t c') : state.Relies c' t := by
  cases state with
  | locked call =>
    apply At.keepsFor h hkeeps
    · exact fun _ hholds => .inl ⟨_, hholds.1⟩
    · exact fun _ _ hkept hholds => ⟨hkept.holds _ hholds.1, hkept.key.trans hholds.2⟩
  | marked call =>
    apply At.keepsFor h hkeeps
    · exact fun _ hholds => .inl ⟨_, hholds.1.1⟩
    · exact fun _ _ hkept hholds => ⟨⟨hkept.holds _ hholds.1.1, hkept.key.trans hholds.1.2⟩,
        fun hwrite => hkept.demoting (hholds.2 hwrite)⟩
  | released call =>
    intro hwrite
    apply At.keepsFor (h hwrite) hkeeps
    · exact fun _ hdemoting => .inr hdemoting.1
    · exact fun _ _ hkept hdemoting =>
        ⟨hkept.demoting hdemoting.1, hkept.key.trans hdemoting.2⟩
  | reacquired call ref | returned call ref =>
    refine ⟨At.keepsFor h.1 hkeeps ?_ ?_, h.2⟩
    · exact fun _ => .inl
    · exact fun _ _ hkept ⟨write, hholds⟩ => ⟨write, hkept.holds write hholds⟩
  | invalidating key ref =>
    apply At.keepsFor h hkeeps
    · exact fun _ hholds => .inl ⟨_, hholds⟩
    · exact fun _ _ hkept => hkept.holds _
  | idle | getting key | testing key | removing key => trivial

theorem Relies.unmark {ref : EntryRef} (h : state.Relies c t) (hne : t ≠ u)
    (hholds : c.At ref fun entry => ∃ write, entry.lock.Holds u write) {call : MipmapCall}
    (halone : (reacquired call ref).takesFlag state = false) :
    state.Relies (setLockDemoting c ref false) t := by
  cases state with
  | locked call => exact At.setEntry h (fun _ hP _ => hP) fun _ hP _ => hP
  | marked call =>
    by_cases hsame : call.ref = ref
    · subst hsame
      apply (At.and h hholds).setEntry (fun _ hP _ => hP.1)
      rintro entry ⟨⟨hcall, -⟩, write, hother⟩ -
      refine ⟨hcall, fun hwrite => absurd ?_ hne⟩
      have hwriter := hcall.1
      rw [hwrite] at hwriter
      exact hwriter.eq_of_writes hother
    · exact At.setEntry h (fun _ hP _ => hP) fun _ _ heq => absurd heq hsame
  | released call =>
    intro hwrite
    apply At.setEntry (h hwrite) (fun _ hP _ => hP)
    intro _ _ heq
    have htakes : (call.write && call.ref == ref) = true := by
      rw [hwrite, heq, beq_self_eq_true]
      rfl
    exact absurd (htakes.symm.trans halone) Bool.noConfusion
  | reacquired call ref | returned call ref =>
    exact ⟨At.setEntry h.1 (fun _ hP _ => hP) fun _ hP _ => hP, h.2⟩
  | invalidating key ref => exact At.setEntry h (fun _ hP _ => hP) fun _ hP _ => hP
  | idle | getting key | testing key | removing key => trivial

theorem consistent_advance (h : c.Consistent) (setup : CacheSetup) (cost : UInt64)
    (state : CallState) : (state.advance setup c t cost).1.Consistent := by
  cases state with
  | getting key => exact h.get setup key .read t cost
  | released call => exact h.get setup call.key .read t cost
  | testing key => exact h.testget key .write t
  | removing key => exact h.remove key
  | locked call | reacquired call ref => exact h.demoting _ _
  | marked call | returned call ref | invalidating key ref => exact h.release _ _
  | idle => exact h

theorem Relies.advance_other {other : CallState} (hother : other.Relies c t) (h : c.Consistent)
    (hne : t ≠ u) (hstate : state.Relies c u) (halone : state.takesFlag other = false)
    (setup : CacheSetup) (cost : UInt64) : other.Relies (state.advance setup c u cost).1 t := by
  cases state with
  | idle => exact hother
  | getting key => exact hother.keepsFor (h.keepsFor_get setup key .read u cost)
  | released call => exact hother.keepsFor (h.keepsFor_get setup call.key .read u cost)
  | testing key => exact hother.keepsFor (h.keepsFor_testget key .write u)
  | removing key => exact hother.keepsFor ((h.keepsGuarded_remove key).keepsFor t)
  | locked call => exact hother.keepsFor (keepsFor_mark call.ref)
  | marked call => exact hother.keepsFor (keepsFor_release hne call.ref)
  | returned call ref | invalidating key ref =>
    exact hother.keepsFor (keepsFor_release hne ref)
  | reacquired call ref =>
    exact hother.unmark hne hstate.1 halone

theorem Relies.advance_self (hstate : state.Relies c t) (h : c.Consistent) (setup : CacheSetup)
    (cost : UInt64) :
    (state.advance (mipmapSetup setup) c t cost).2.Relies
      (state.advance (mipmapSetup setup) c t cost).1 t := by
  cases state with
  | idle => trivial
  | getting key =>
    rw [advance]
    rcases hget : (dtCacheGet (mipmapSetup setup) c key .read t cost).2 with _ | ref
    · trivial
    · exact (h.at_get hget).1
  | locked call =>
    exact At.setEntry hstate (fun _ _ => absurd rfl)
      fun _ hholds _ => ⟨hholds, fun _ => rfl⟩
  | marked call =>
    intro hwrite
    exact At.setEntry hstate (fun _ _ => absurd rfl)
      fun _ hholds _ => ⟨hholds.2 hwrite, hholds.1.2⟩
  | released call =>
    rw [advance]
    rcases hget : (dtCacheGet (mipmapSetup setup) c call.key .read t cost).2 with _ | ref
    · exact hstate.keepsFor (h.keepsFor_get (mipmapSetup setup) call.key .read t cost)
    · obtain ⟨⟨hmem, entry, hentry, hholds, -⟩, hsame⟩ := h.at_get hget
      refine ⟨⟨hmem, entry, hentry, _, hholds⟩, fun hwrite => ?_⟩
      -- the flag has kept the entry, so its key finds it
      obtain ⟨hkept, kept, hentry', -, hkey⟩ := hstate hwrite
      exact hsame call.ref ((h.lookup _ _).mpr ⟨hkept, by rw [keyOf, hentry', ← hkey]; rfl⟩)
  | reacquired call ref =>
    exact ⟨At.setEntry hstate.1 (fun _ hholds _ => hholds) fun _ hholds _ => hholds, hstate.2⟩
  | returned call ref => trivial
  | testing key =>
    rw [advance]
    obtain ⟨ref, c', href, hlock, heq⟩ | heq := dtCacheTestget_cases c key .write t
    · simp only [heq]
      obtain ⟨hmem, entry, hentry, hholds, -⟩ := at_lockEntry ((h.lookup key ref).mp href).1 hlock
      exact ⟨hmem, entry, hentry, hholds⟩
    · simp only [heq]
      trivial
  | invalidating key ref => trivial
  | removing key =>
    rw [advance]
    split <;> trivial

end CallState

/-! ## Whole runs -/

namespace MipmapSystem

variable {n : Nat}

/-- No call that waits to read what it wrote has lost the entry, and it returns that entry. -/
structure ReturnsWritten (s : MipmapSystem n) : Prop where
  released : ∀ i call, s.calls i = .released call → call.write = true →
    (s.cache.entries call.ref).isSome ∧ s.cache.hashtable call.key = some call.ref
  reacquired : ∀ i call ref, s.calls i = .reacquired call ref → call.write = true → ref = call.ref
  returned : ∀ i call ref, s.calls i = .returned call ref → call.write = true → ref = call.ref

/-- No call clears the flag of an entry that another call has written, released and not yet
read. -/
def KeepsFlags (s : MipmapSystem n) : MipmapEvent n → Prop
  | .advance i _ => ∀ j ≠ i, (s.calls i).takesFlag (s.calls j) = false
  | _ => True

instance (s : MipmapSystem n) : (e : MipmapEvent n) → Decidable (s.KeepsFlags e)
  | .advance i _ => inferInstanceAs (Decidable (∀ j ≠ i, (s.calls i).takesFlag (s.calls j) = false))
  | .get .. | .removeAtSize .. | .evictAtSize .. | .gc .. => inferInstanceAs (Decidable True)

/-- What all the threads rely on. -/
structure Sound (s : MipmapSystem n) : Prop where
  consistent : s.cache.Consistent
  relies : ∀ i : Fin n, (s.calls i).Relies s.cache i

variable {s : MipmapSystem n}

theorem Sound.init : (init n).Sound := ⟨Consistent.init, fun _ => trivial⟩

theorem Sound.start (h : s.Sound) (i : Fin n) {call : CallState}
    (hcall : ∀ c, call.Relies c i) : (s.start i call).Sound := by
  unfold MipmapSystem.start
  split
  · refine ⟨h.consistent, ?_⟩
    apply (forall_update_iff s.calls fun j state => state.Relies s.cache j).mpr
    exact ⟨hcall s.cache, fun j _ => h.relies j⟩
  · exact h

theorem Sound.mipmapStep (h : s.Sound) (setup : CacheSetup) (e : MipmapEvent n)
    (hflags : s.KeepsFlags e) : (mipmapStep setup s e).Sound := by
  cases e with
  | get i key | removeAtSize i key | evictAtSize i key => exact h.start i fun _ => trivial
  | advance i cost =>
    refine ⟨consistent_advance h.consistent _ cost _, ?_⟩
    apply (forall_update_iff s.calls fun j state => state.Relies _ j).mpr
    constructor
    · exact (h.relies i).advance_self h.consistent setup cost
    · intro j hne
      exact (h.relies j).advance_other h.consistent (Fin.val_ne_of_ne hne) (h.relies i)
        (hflags j hne) _ cost
  | gc fillRatio =>
    refine ⟨h.consistent.gc _ fillRatio, fun j => ?_⟩
    exact (h.relies j).keepsFor ((h.consistent.keepsGuarded_gc _ fillRatio).keepsFor j)

theorem Sound.returnsWritten (h : s.Sound) : s.ReturnsWritten where
  released i call hcall hwrite := by
    have hrelies := h.relies i
    rw [hcall] at hrelies
    obtain ⟨hmem, entry, hentry, -, hkey⟩ := hrelies hwrite
    refine ⟨Option.isSome_iff_exists.mpr ⟨entry, hentry⟩, ?_⟩
    exact (h.consistent.lookup _ _).mpr ⟨hmem, by rw [keyOf, hentry, ← hkey]; rfl⟩
  reacquired i call ref hcall := by
    have hrelies := h.relies i
    rw [hcall] at hrelies
    exact hrelies.2
  returned i call ref hcall := by
    have hrelies := h.relies i
    rw [hcall] at hrelies
    exact hrelies.2

end MipmapSystem

/-- As long as no call clears a flag that another one needs, a call returns the entry that it
wrote, whatever is collected and removed meanwhile. -/
theorem mipmapStep_returnsWritten {n : Nat} (setup : CacheSetup) (es : List (MipmapEvent n))
    (hflags : AllSteps (mipmapStep setup) MipmapSystem.KeepsFlags (MipmapSystem.init n) es) :
    AllStates (mipmapStep setup) MipmapSystem.ReturnsWritten (MipmapSystem.init n) es :=
  (allStates_of_allSteps (fun _ e h => h.mipmapStep setup e) Sound.init hflags).mono
    fun _ h => h.returnsWritten

def sampleQuota : CacheSetup where
  allocates := true
  costQuota := 10
  toFloat := id

-- A collection while the first thread is in between; the second one comes before it has read the
-- entry again and goes after.
def orderedGets : List (MipmapEvent 3) :=
  [.get 0 1, .advance 0 9, .advance 0 0, .advance 0 0, .get 2 2, .advance 2 9, .get 1 1,
    .advance 1 0, .advance 1 0, .advance 0 0, .advance 1 0, .advance 0 0, .advance 1 0,
    .advance 1 0, .advance 0 0, .advance 1 0]

theorem mipmapStep_returnsWritten_ordered :
    AllSteps (mipmapStep sampleQuota) MipmapSystem.KeepsFlags (MipmapSystem.init 3) orderedGets ∧
      AllStates (mipmapStep sampleQuota) MipmapSystem.ReturnsWritten (MipmapSystem.init 3)
        orderedGets :=
  have hflags : AllSteps (mipmapStep sampleQuota) KeepsFlags (init 3)
      orderedGets := by decide +kernel
  ⟨hflags, mipmapStep_returnsWritten sampleQuota orderedGets hflags⟩

-- The second thread clears the flag while the first one is in between, and the third one needs
-- room.
def overlappingGets : List (MipmapEvent 3) :=
  [.get 0 1, .advance 0 9, .advance 0 0, .advance 0 0, .get 1 1, .advance 1 0, .advance 1 0,
    .advance 1 0, .advance 1 0, .advance 1 0, .advance 1 0, .get 2 2, .advance 2 9, .advance 0 9,
    .advance 0 0]

theorem overlappingGets_lose_entry :
    ¬ AllStates (mipmapStep sampleQuota) MipmapSystem.ReturnsWritten (MipmapSystem.init 3)
      overlappingGets := by
  intro h
  have hend : (overlappingGets.foldl (mipmapStep sampleQuota) (init 3)).calls 0 =
      .returned ⟨1, 0, true⟩ 2 := by decide +kernel
  exact absurd (h.last.returned 0 _ 2 hend rfl) (by decide)

end DTLite
