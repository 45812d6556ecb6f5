import DTLite.Reasoning.Runs
import DTLite.Reasoning.RwLock
import Mathlib.Algebra.BigOperators.Group.List.Basic
import Mathlib.Data.UInt

/-!
# The cache

A concurrent LRU cache: entries are found by their keys in a hash table and kept in the order of
their use in a list, and each has a lock of its own.  What a function does under the mutex of the
cache is one step here; a function that finds a lock taken gives the mutex up and starts again.
-/

namespace DTLite

open Reasoning List Option Function

abbrev EntryRef := Nat
abbrev ThreadId := Nat

/-- `dt_cache_entry_t`. -/
structure CacheEntry where
  cost : UInt64
  lock : RwLock ThreadId
  lockDemoting : Bool
  key : UInt32
deriving DecidableEq, Repr

/-- `dt_cache_t`, with the entries that are in memory. -/
structure Cache where
  cost : UInt64
  hashtable : UInt32 → Option EntryRef
  -- last element is most recently used, first is about to be kicked from cache
  lru : List EntryRef
  entries : EntryRef → Option CacheEntry
  -- where the next entry is put
  next : EntryRef

/-- What does not change; `toFloat` is the rounding to a `float`, which may be any. -/
structure CacheSetup where
  allocates : Bool
  costQuota : UInt64
  toFloat : Rat → Rat

namespace CacheSetup

variable (setup : CacheSetup)

def quotaTimes (ratio : Rat) : Rat :=
  setup.toFloat (setup.toFloat setup.costQuota.toNat * setup.toFloat ratio)

-- `cache->cost > 0.8f * cache->cost_quota`
def aboveQuota (cost : UInt64) : Bool :=
  setup.quotaTimes (4 / 5) < setup.toFloat cost.toNat

-- `cache->cost < cache->cost_quota * fill_ratio`
def belowRatio (fillRatio : Rat) (cost : UInt64) : Bool :=
  setup.toFloat cost.toNat < setup.quotaTimes fillRatio

end CacheSetup

inductive LockMode where
  | read
  | write
deriving DecidableEq, Repr

def LockMode.tryLock : LockMode → RwLock ThreadId → ThreadId → Option (RwLock ThreadId)
  | .read => RwLock.tryRdlock
  | .write => RwLock.tryWrlock

def dtCacheInit : Cache where
  cost := 0
  hashtable _ := none
  lru := []
  entries _ := none
  next := 0

variable (setup : CacheSetup) (c : Cache) (key : UInt32) (ref : EntryRef) (entry : CacheEntry)
  (mode : LockMode) (t : ThreadId) (cost : UInt64)

namespace Cache

def setEntry (entry : Option CacheEntry) : Cache :=
  { c with entries := update c.entries ref entry }

-- "lock the cache entry" and "bubble up in lru list", `none` if it is locked.
def lockEntry : Option Cache :=
  (c.entries ref).bind fun entry =>
    (mode.tryLock entry.lock t).map fun lock =>
      { c.setEntry ref (some { entry with lock }) with lru := c.lru.erase ref ++ [ref] }

def delete : Cache where
  cost := c.cost - entry.cost
  hashtable := update c.hashtable key none
  lru := c.lru.erase ref
  entries := update c.entries ref none
  next := c.next

-- `none` if the entry is locked, or being demoted: "do not touch!"
def tryDelete (key : CacheEntry → UInt32) (ref : EntryRef) : Option Cache :=
  (c.entries ref).bind fun entry =>
    if entry.lock.isFree && !entry.lockDemoting then some (c.delete (key entry) ref entry) else none

-- "if allocate callback is given, always return a write lock".
def insert : Cache where
  cost := c.cost + cost
  hashtable := update c.hashtable key (some c.next)
  lru := c.lru ++ [c.next]
  entries := update c.entries c.next (some
    { cost := cost
      lock := if mode = .write ∨ setup.allocates then .written t else .shared [t]
      lockDemoting := false
      key := key })
  next := c.next + 1

end Cache

-- The loop of `dt_cache_gc`, along the list as it was.
def gcLoop (below : UInt64 → Bool) : List EntryRef → Cache → Cache
  | [], c => c
  | ref :: l, c => if below c.cost then c else gcLoop below l ((c.tryDelete (·.key) ref).getD c)

def dtCacheGc (fillRatio : Rat) : Cache :=
  gcLoop (setup.belowRatio fillRatio) c.lru c

/-- With the entry it returns. -/
def dtCacheTestget : Cache × Option EntryRef :=
  match c.hashtable key with
  | none => (c, none)
  | some ref =>
      match c.lockEntry ref mode t with
      | some c' => (c', some ref)
      | none => (c, none)

/-- `none` for the entry when it has to start again. `cost` is what the allocate callback gives a
new entry; without one it is 1. -/
def dtCacheGet : Cache × Option EntryRef :=
  match c.hashtable key with
  | some _ => dtCacheTestget c key mode t
  | none =>
      let c := if setup.aboveQuota c.cost then dtCacheGc setup c (4 / 5) else c
      (c.insert setup key mode t (if setup.allocates then cost else 1), some c.next)

/-- It starts again while the entry is there and cannot be deleted. -/
def dtCacheRemove : Cache :=
  ((c.hashtable key).bind (c.tryDelete fun _ => key)).getD c

def dtCacheRelease : Cache :=
  c.setEntry ref ((c.entries ref).map fun entry => { entry with lock := entry.lock.unlock t })

def setLockDemoting (demoting : Bool) : Cache :=
  c.setEntry ref ((c.entries ref).map fun entry => { entry with lockDemoting := demoting })

inductive CacheEvent where
  | get (t : ThreadId) (key : UInt32) (mode : LockMode) (cost : UInt64)
  | testget (t : ThreadId) (key : UInt32) (mode : LockMode)
  | release (t : ThreadId) (ref : EntryRef)
  | remove (key : UInt32)
  | gc (fillRatio : Rat)
  | demoting (ref : EntryRef) (value : Bool)
deriving DecidableEq, Repr

def cacheStep : CacheEvent → Cache
  | .get t key mode cost => (dtCacheGet setup c key mode t cost).1
  | .testget t key mode => (dtCacheTestget c key mode t).1
  | .release t ref => dtCacheRelease c ref t
  | .remove key => dtCacheRemove c key
  | .gc fillRatio => dtCacheGc setup c fillRatio
  | .demoting ref value => setLockDemoting c ref value

/-! ## The entries are in both places -/

def CacheEntry.fixed : UInt32 × UInt64 := (entry.key, entry.cost)

namespace Cache

def keyOf : Option UInt32 := (c.entries ref).map CacheEntry.key

def costOf : UInt64 := ((c.entries ref).map CacheEntry.cost).getD 0

/-- The list has the entries of the hash table, each once, and their costs are the cost of the
cache. -/
structure Consistent (c : Cache) : Prop where
  nodup : c.lru.Nodup
  lookup : ∀ key ref, c.hashtable key = some ref ↔ ref ∈ c.lru ∧ c.keyOf ref = some key
  inMemory : ∀ ref ∈ c.lru, (c.entries ref).isSome
  cost : c.cost = (c.lru.map c.costOf).sum
  fresh : ∀ ref ∈ c.lru, ref < c.next

theorem Consistent.init : dtCacheInit.Consistent where
  nodup := nodup_nil
  lookup _ ref := ⟨fun h => absurd h (some_ne_none ref).symm,
    fun h => absurd h.1 not_mem_nil⟩
  inMemory _ h := absurd h not_mem_nil
  cost := rfl
  fresh _ h := absurd h not_mem_nil

variable {c c' : Cache}

/-- The entries have the same keys and costs; neither their locks nor the order of the list
matter. -/
structure SameFixed (c c' : Cache) : Prop where
  lru : c'.lru.Perm c.lru
  hashtable : c'.hashtable = c.hashtable
  cost : c'.cost = c.cost
  next : c'.next = c.next
  entries : ∀ ref, (c'.entries ref).map CacheEntry.fixed = (c.entries ref).map CacheEntry.fixed

theorem SameFixed.keyOf (h : SameFixed c c') (ref : EntryRef) : c'.keyOf ref = c.keyOf ref := by
  have hfixed := congrArg (Option.map Prod.fst) (h.entries ref)
  rw [Option.map_map, Option.map_map] at hfixed
  exact hfixed

theorem SameFixed.costOf (h : SameFixed c c') : c'.costOf = c.costOf := by
  funext ref
  have hfixed := congrArg (Option.map Prod.snd) (h.entries ref)
  rw [Option.map_map, Option.map_map] at hfixed
  exact congrArg (Option.getD · 0) hfixed

theorem Consistent.of_sameFixed (h : c.Consistent) (hsame : SameFixed c c') : c'.Consistent where
  nodup := hsame.lru.nodup_iff.mpr h.nodup
  lookup key ref := by rw [hsame.hashtable, hsame.keyOf, hsame.lru.mem_iff, h.lookup]
  inMemory ref href := by
    have hfixed := congrArg isSome (hsame.entries ref)
    rw [isSome_map, isSome_map] at hfixed
    rw [hfixed]
    exact h.inMemory ref (hsame.lru.mem_iff.mp href)
  cost := by rw [hsame.cost, h.cost, hsame.costOf, (hsame.lru.map c.costOf).sum_eq]
  fresh ref href := by
    rw [hsame.next]
    exact h.fresh ref (hsame.lru.mem_iff.mp href)

theorem sameFixed_setEntry {ref : EntryRef} {f : CacheEntry → CacheEntry}
    (hf : ∀ entry, (f entry).fixed = entry.fixed) :
    SameFixed c (c.setEntry ref ((c.entries ref).map f)) where
  lru := List.Perm.refl _
  hashtable := rfl
  cost := rfl
  next := rfl
  entries ref' := by
    show (update c.entries ref _ ref').map _ = _
    by_cases hne : ref' = ref
    · subst hne
      rw [update_self, Option.map_map]
      exact Option.map_congr fun entry _ => hf entry
    · rw [update_of_ne hne]

theorem lockEntry_eq_some {ref : EntryRef} {mode : LockMode} {t : ThreadId}
    (hlock : c.lockEntry ref mode t = some c') :
    ∃ entry lock, c.entries ref = some entry ∧ mode.tryLock entry.lock t = some lock ∧
      c' = { c.setEntry ref (some { entry with lock }) with lru := c.lru.erase ref ++ [ref] } := by
  obtain ⟨entry, hentry, hlock⟩ := bind_eq_some_iff.mp hlock
  obtain ⟨lock, htry, heq⟩ := map_eq_some_iff.mp hlock
  exact ⟨entry, lock, hentry, htry, heq.symm⟩

theorem sameFixed_lockEntry {ref : EntryRef} (href : ref ∈ c.lru) {mode : LockMode} {t : ThreadId}
    (hlock : c.lockEntry ref mode t = some c') : SameFixed c c' := by
  obtain ⟨entry, lock, hentry, -, rfl⟩ := lockEntry_eq_some hlock
  have hset := @sameFixed_setEntry c ref (fun entry => { entry with lock }) fun _ => rfl
  rw [hentry] at hset
  refine { hset with lru := ?_ }
  exact (perm_append_singleton ref _).trans (perm_cons_erase href).symm

theorem delete_keyOf : (c.delete key ref entry).keyOf = update c.keyOf ref none :=
  comp_update (Option.map CacheEntry.key) c.entries ref none

theorem delete_costOf : (c.delete key ref entry).costOf = update c.costOf ref 0 :=
  comp_update (fun entry : Option CacheEntry => (entry.map CacheEntry.cost).getD 0)
    c.entries ref none

theorem Consistent.delete (h : c.Consistent) {key : UInt32} {ref : EntryRef}
    (href : c.hashtable key = some ref) {entry : CacheEntry} (hentry : c.entries ref = some entry) :
    (c.delete key ref entry).Consistent where
  nodup := h.nodup.erase ref
  lookup key' ref' := by
    rw [delete_keyOf]
    show update c.hashtable key none key' = some ref' ↔ ref' ∈ c.lru.erase ref ∧ _
    rw [h.nodup.mem_erase_iff]
    by_cases hkey : key' = key
    · subst hkey
      rw [update_self]
      refine ⟨fun h' => absurd h'.symm (some_ne_none ref'), ?_⟩
      rintro ⟨⟨hne, hmem⟩, hkey⟩
      -- two entries of the list with one key would both be found by it
      rw [update_of_ne hne] at hkey
      have hsame := (h.lookup key' ref').mpr ⟨hmem, hkey⟩
      exact absurd (some.inj (hsame.symm.trans href)) hne
    · rw [update_of_ne hkey, h.lookup]
      by_cases hne : ref' = ref
      · subst hne
        have hother : c.keyOf ref' ≠ some key' := by
          rw [((h.lookup key ref').mp href).2]
          exact fun h' => hkey (some.inj h').symm
        simp [hother]
      · simp [hne]
  inMemory ref' href' := by
    obtain ⟨hne, hmem⟩ := h.nodup.mem_erase_iff.mp href'
    show (update c.entries ref none ref').isSome
    rw [update_of_ne hne]
    exact h.inMemory ref' hmem
  cost := by
    have hcosts : (c.lru.erase ref).map (update c.costOf ref 0) = (c.lru.erase ref).map c.costOf :=
      map_congr_left fun ref' href' =>
        update_of_ne (h.nodup.mem_erase_iff.mp href').1 _ _
    have hsum : c.cost = entry.cost + ((c.lru.erase ref).map c.costOf).sum := by
      have hperm := (perm_cons_erase ((h.lookup key ref).mp href).1).map c.costOf
      have hfirst : c.costOf ref = entry.cost := by simp [costOf, hentry]
      rw [h.cost, hperm.sum_eq, map_cons, sum_cons, hfirst]
    rw [delete_costOf]
    show c.cost - entry.cost = ((c.lru.erase ref).map _).sum
    rw [hcosts, hsum, add_sub_cancel_left]
  fresh ref' href' := h.fresh ref' (mem_of_mem_erase href')

theorem insert_keyOf : (c.insert setup key mode t cost).keyOf = update c.keyOf c.next (some key) :=
  comp_update (Option.map CacheEntry.key) c.entries c.next _

theorem insert_costOf : (c.insert setup key mode t cost).costOf = update c.costOf c.next cost :=
  comp_update (fun entry : Option CacheEntry => (entry.map CacheEntry.cost).getD 0)
    c.entries c.next _

theorem Consistent.next_not_mem (h : c.Consistent) : c.next ∉ c.lru :=
  fun hmem => absurd (h.fresh _ hmem) (Nat.lt_irrefl _)

theorem Consistent.insert (h : c.Consistent) (setup : CacheSetup) {key : UInt32}
    (hkey : c.hashtable key = none) (mode : LockMode) (t : ThreadId) (cost : UInt64) :
    (c.insert setup key mode t cost).Consistent where
  nodup := by
    apply h.nodup.append (nodup_singleton _)
    simpa using h.next_not_mem
  lookup key' ref := by
    rw [insert_keyOf]
    show update c.hashtable key (some c.next) key' = some ref ↔ ref ∈ c.lru ++ [c.next] ∧ _
    by_cases hne : ref = c.next
    · subst hne
      have hnew : c.hashtable key' ≠ some c.next :=
        fun h' => h.next_not_mem ((h.lookup key' _).mp h').1
      by_cases hsame : key' = key
      · simp [hsame]
      · simp [hsame, hnew, Ne.symm hsame]
    · by_cases hsame : key' = key
      · subst hsame
        have hold := h.lookup key' ref
        rw [hkey] at hold
        simpa [hne, Ne.symm hne] using hold
      · simpa [hne, hsame] using h.lookup key' ref
  inMemory ref href := by
    show (update c.entries c.next _ ref).isSome
    by_cases hne : ref = c.next
    · subst hne
      rw [update_self]
      rfl
    · rw [update_of_ne hne]
      exact h.inMemory ref (by simpa [hne, Cache.insert] using href)
  cost := by
    have hcosts : c.lru.map (update c.costOf c.next cost) = c.lru.map c.costOf :=
      map_congr_left fun ref href =>
        update_of_ne (ne_of_mem_of_not_mem href h.next_not_mem) _ _
    rw [insert_costOf]
    show c.cost + cost = ((c.lru ++ [c.next]).map _).sum
    rw [map_append, hcosts, sum_append, ← h.cost, map_singleton, update_self, sum_singleton]
  fresh ref href := by
    rcases mem_append.mp href with hold | hnew
    · exact Nat.lt_succ_of_lt (h.fresh ref hold)
    · rw [mem_singleton.mp hnew]
      exact Nat.lt_succ_self _

/-! ## Every step keeps it -/

theorem tryDelete_eq_some {key : CacheEntry → UInt32} {ref : EntryRef}
    (hdelete : c.tryDelete key ref = some c') :
    ∃ entry, c.entries ref = some entry ∧ entry.lock.isFree = true ∧ entry.lockDemoting = false ∧
      c' = c.delete (key entry) ref entry := by
  obtain ⟨entry, hentry, hdelete⟩ := bind_eq_some_iff.mp hdelete
  split at hdelete
  next hfree =>
    rw [Bool.and_eq_true, Bool.not_eq_true'] at hfree
    exact ⟨entry, hentry, hfree.1, hfree.2, (some.inj hdelete).symm⟩
  next => cases hdelete

theorem Consistent.tryDelete (h : c.Consistent) {key : CacheEntry → UInt32} {ref : EntryRef}
    (hkey : ∀ entry, c.entries ref = some entry → c.hashtable (key entry) = some ref)
    (hdelete : c.tryDelete key ref = some c') : c'.Consistent := by
  obtain ⟨entry, hentry, -, -, rfl⟩ := tryDelete_eq_some hdelete
  exact h.delete (hkey entry hentry) hentry

theorem Consistent.remove (h : c.Consistent) (key : UInt32) : (dtCacheRemove c key).Consistent := by
  unfold dtCacheRemove
  rcases hdelete : (c.hashtable key).bind (c.tryDelete fun _ => key) with _ | c'
  · exact h
  · obtain ⟨ref, href, hdelete⟩ := bind_eq_some_iff.mp hdelete
    exact h.tryDelete (fun _ _ => href) hdelete

theorem dtCacheTestget_cases (c : Cache) (key : UInt32) (mode : LockMode) (t : ThreadId) :
    (∃ ref c', c.hashtable key = some ref ∧ c.lockEntry ref mode t = some c' ∧
      dtCacheTestget c key mode t = (c', some ref)) ∨
    dtCacheTestget c key mode t = (c, none) := by
  unfold dtCacheTestget
  rcases hkey : c.hashtable key with _ | ref
  · exact .inr rfl
  · rcases hlock : c.lockEntry ref mode t with _ | c'
    · exact .inr (by simp [hlock])
    · exact .inl ⟨ref, c', rfl, hlock, by simp only [hlock]⟩

theorem Consistent.testget (h : c.Consistent) (key : UInt32) (mode : LockMode)
    (t : ThreadId) : (dtCacheTestget c key mode t).1.Consistent := by
  obtain ⟨ref, c', href, hlock, heq⟩ | heq := dtCacheTestget_cases c key mode t
  · rw [heq]
    exact h.of_sameFixed (sameFixed_lockEntry ((h.lookup key ref).mp href).1 hlock)
  · rw [heq]
    exact h

-- Deletes the entries of a list, or leaves them; the induction is on what is left of the list,
-- which the cache has still.
theorem gcLoop_keeps {P : Cache → Prop} {below : UInt64 → Bool}
    (hdelete : ∀ c c' ref, c.Consistent → P c → c.tryDelete (·.key) ref = some c' → P c') :
    ∀ (l : List EntryRef) (c : Cache), l.Nodup → l ⊆ c.lru → c.Consistent → P c →
      (gcLoop below l c).Consistent ∧ P (gcLoop below l c) := by
  intro l
  induction l with
  | nil => exact fun c _ _ h hP => ⟨h, hP⟩
  | cons ref l ih =>
    intro c hnodup hsub h hP
    rw [gcLoop]
    split
    · exact ⟨h, hP⟩
    · obtain ⟨href, hnodup⟩ := nodup_cons.mp hnodup
      obtain ⟨hmem, hsub⟩ := cons_subset.mp hsub
      rcases htry : c.tryDelete (·.key) ref with _ | c'
      · exact ih c hnodup hsub h hP
      · have hkey : ∀ entry, c.entries ref = some entry → c.hashtable entry.key = some ref :=
          fun entry hentry => (h.lookup _ _).mpr ⟨hmem, by rw [keyOf, hentry]; rfl⟩
        refine ih c' hnodup ?_ (h.tryDelete hkey htry) (hdelete c c' ref h hP htry)
        intro ref' href'
        obtain ⟨entry, -, -, -, rfl⟩ := tryDelete_eq_some htry
        apply h.nodup.mem_erase_iff.mpr
        exact ⟨ne_of_mem_of_not_mem href' href, hsub href'⟩

theorem Consistent.gc_keeps (h : c.Consistent) {P : Cache → Prop} (hP : P c)
    (hdelete : ∀ c c' ref, c.Consistent → P c → c.tryDelete (·.key) ref = some c' → P c')
    (setup : CacheSetup) (fillRatio : Rat) :
    (dtCacheGc setup c fillRatio).Consistent ∧ P (dtCacheGc setup c fillRatio) :=
  gcLoop_keeps hdelete c.lru c h.nodup (List.Subset.refl _) h hP

theorem Consistent.gc (h : c.Consistent) (setup : CacheSetup) (fillRatio : Rat) :
    (dtCacheGc setup c fillRatio).Consistent :=
  (h.gc_keeps (P := fun _ => True) trivial (fun _ _ _ _ _ _ => trivial) setup fillRatio).1

/-- Entries that are locked or being demoted are left alone. -/
def KeepsGuarded (c c' : Cache) : Prop :=
  ∀ ref entry, ref ∈ c.lru → c.entries ref = some entry →
    entry.lock.isFree = false ∨ entry.lockDemoting = true →
      ref ∈ c'.lru ∧ c'.entries ref = some entry

theorem KeepsGuarded.refl (c : Cache) : KeepsGuarded c c := fun _ _ hmem hentry _ => ⟨hmem, hentry⟩

theorem KeepsGuarded.trans {c'' : Cache} (h : KeepsGuarded c c') (h' : KeepsGuarded c' c'') :
    KeepsGuarded c c'' := by
  intro ref entry hmem hentry hguarded
  obtain ⟨hmem, hentry⟩ := h ref entry hmem hentry hguarded
  exact h' ref entry hmem hentry hguarded

section

variable (h : c.Consistent)
include h

theorem Consistent.keepsGuarded_tryDelete {key : CacheEntry → UInt32} {ref : EntryRef}
    (hdelete : c.tryDelete key ref = some c') : KeepsGuarded c c' := by
  obtain ⟨deleted, hdeleted, hfree, hdemoting, rfl⟩ := tryDelete_eq_some hdelete
  intro ref' entry hmem hentry hguarded
  have hne : ref' ≠ ref := by
    rintro rfl
    cases hdeleted.symm.trans hentry
    rw [hfree, hdemoting] at hguarded
    exact hguarded.elim Bool.noConfusion Bool.noConfusion
  refine ⟨h.nodup.mem_erase_iff.mpr ⟨hne, hmem⟩, ?_⟩
  show update c.entries ref none ref' = some entry
  rw [update_of_ne hne, hentry]

theorem Consistent.keepsGuarded_insert (setup : CacheSetup) (key : UInt32) (mode : LockMode)
    (t : ThreadId) (cost : UInt64) : KeepsGuarded c (c.insert setup key mode t cost) := by
  intro ref entry hmem hentry _
  refine ⟨mem_append_left _ hmem, ?_⟩
  show update c.entries c.next _ ref = some entry
  rw [update_of_ne (ne_of_mem_of_not_mem hmem h.next_not_mem), hentry]

theorem Consistent.keepsGuarded_gc (setup : CacheSetup) (fillRatio : Rat) :
    KeepsGuarded c (dtCacheGc setup c fillRatio) :=
  (h.gc_keeps (KeepsGuarded.refl c)
    (fun _ _ _ h' hkeeps htry => hkeeps.trans (h'.keepsGuarded_tryDelete htry)) setup fillRatio).2

theorem Consistent.keepsGuarded_remove (key : UInt32) : KeepsGuarded c (dtCacheRemove c key) := by
  unfold dtCacheRemove
  rcases hdelete : (c.hashtable key).bind (c.tryDelete fun _ => key) with _ | c'
  · exact KeepsGuarded.refl c
  · obtain ⟨ref, -, hdelete⟩ := bind_eq_some_iff.mp hdelete
    exact h.keepsGuarded_tryDelete hdelete

theorem Consistent.get_cases (setup : CacheSetup) (key : UInt32) (mode : LockMode) (t : ThreadId)
    (cost : UInt64) :
    (∃ ref c', c.hashtable key = some ref ∧ c.lockEntry ref mode t = some c' ∧
      dtCacheGet setup c key mode t cost = (c', some ref)) ∨
    dtCacheGet setup c key mode t cost = (c, none) ∨
    (c.hashtable key = none ∧ ∃ c₁ cost', c₁.Consistent ∧ c₁.hashtable key = none ∧
      KeepsGuarded c c₁ ∧
      dtCacheGet setup c key mode t cost = (c₁.insert setup key mode t cost', some c₁.next)) := by
  unfold dtCacheGet
  rcases hkey : c.hashtable key with _ | ref
  · refine .inr (.inr ⟨rfl, if setup.aboveQuota c.cost then dtCacheGc setup c (4 / 5) else c,
      if setup.allocates then cost else 1, ?_⟩)
    split
    · obtain ⟨hgc, hnone⟩ := h.gc_keeps (P := fun c => c.hashtable key = none) hkey
        (fun c c' ref _ hnone htry => by
          obtain ⟨entry, -, -, -, rfl⟩ := tryDelete_eq_some htry
          show update c.hashtable entry.key none key = none
          rw [update_apply, hnone, ite_self]) setup (4 / 5)
      exact ⟨hgc, hnone, h.keepsGuarded_gc setup _, rfl⟩
    · exact ⟨h, hkey, KeepsGuarded.refl c, rfl⟩
  · obtain ⟨ref', c', href, hlock, heq⟩ | heq := dtCacheTestget_cases c key mode t
    · exact .inl ⟨ref', c', hkey.symm.trans href, hlock, heq⟩
    · exact .inr (.inl heq)

theorem Consistent.get (setup : CacheSetup) (key : UInt32) (mode : LockMode) (t : ThreadId)
    (cost : UInt64) : (dtCacheGet setup c key mode t cost).1.Consistent := by
  obtain ⟨ref, c', href, hlock, heq⟩ | heq | ⟨-, c₁, cost', h₁, hnone, -, heq⟩ :=
    h.get_cases setup key mode t cost
  all_goals rw [heq]
  · exact h.of_sameFixed (sameFixed_lockEntry ((h.lookup key ref).mp href).1 hlock)
  · exact h
  · exact h₁.insert setup hnone mode t cost'

theorem Consistent.release (ref : EntryRef) (t : ThreadId) : (dtCacheRelease c ref t).Consistent :=
  h.of_sameFixed (sameFixed_setEntry fun _ => rfl)

theorem Consistent.demoting (ref : EntryRef) (value : Bool) :
    (setLockDemoting c ref value).Consistent := h.of_sameFixed (sameFixed_setEntry fun _ => rfl)

theorem Consistent.step (setup : CacheSetup) (e : CacheEvent) :
    (cacheStep setup c e).Consistent := by
  cases e with
  | get t key mode cost => exact h.get setup key mode t cost
  | testget t key mode => exact h.testget key mode t
  | release t ref => exact h.release ref t
  | remove key => exact h.remove key
  | gc fillRatio => exact h.gc setup fillRatio
  | demoting ref value => exact h.demoting ref value

end

/-- Both hold the same entries, with distinct keys, and the cost of the cache is the sum of theirs.
-/
structure HoldsSameEntries (c : Cache) : Prop where
  same : ∀ ref, ref ∈ c.lru ↔ ∃ key, c.hashtable key = some ref
  keyed : ∀ key ref, c.hashtable key = some ref → c.keyOf ref = some key
  distinct : (c.lru.map c.keyOf).Nodup
  cost : c.cost = (c.lru.map c.costOf).sum

theorem Consistent.holdsSameEntries (h : c.Consistent) : c.HoldsSameEntries where
  same ref := by
    constructor
    · intro hmem
      obtain ⟨entry, hentry⟩ := isSome_iff_exists.mp (h.inMemory ref hmem)
      exact ⟨entry.key, (h.lookup _ _).mpr ⟨hmem, congrArg (Option.map CacheEntry.key) hentry⟩⟩
    · intro ⟨key, href⟩
      exact ((h.lookup key ref).mp href).1
  keyed key ref href := ((h.lookup key ref).mp href).2
  distinct := by
    apply h.nodup.map_on
    intro ref hmem ref' hmem' hkeys
    obtain ⟨entry, hentry⟩ := isSome_iff_exists.mp (h.inMemory ref hmem)
    have hkey : c.keyOf ref = some entry.key := congrArg (Option.map CacheEntry.key) hentry
    have hfound := (h.lookup _ _).mpr ⟨hmem, hkey⟩
    have hfound' := (h.lookup _ _).mpr ⟨hmem', hkeys.symm.trans hkey⟩
    exact some.inj (hfound.symm.trans hfound')
  cost := h.cost

end Cache

/-- Whatever the threads do, in whatever order, the two places agree. -/
theorem cacheStep_holdsSameEntries (setup : CacheSetup) (es : List CacheEvent) :
    AllStates (cacheStep setup) Cache.HoldsSameEntries dtCacheInit es :=
  (allStates_of_step (fun _ e h => h.step setup e) es Cache.Consistent.init).mono
    fun _ h => h.holdsSameEntries

/-! ## What is kicked from the cache -/

namespace Cache

/-- Neither locked nor being demoted. -/
def Evictable (c : Cache) (ref : EntryRef) : Prop :=
  ∃ entry, c.entries ref = some entry ∧ entry.lock.isFree = true ∧ entry.lockDemoting = false

-- `c'` has lost the evictable entries of `seen` and is otherwise as `c`.
structure Walked (seen : List EntryRef) (c c' : Cache) : Prop where
  lru : ∀ ref, ref ∈ c'.lru ↔ ref ∈ c.lru ∧ ¬ (ref ∈ seen ∧ c.Evictable ref)
  entries : ∀ ref ∈ c'.lru, c'.entries ref = c.entries ref

variable {c c' : Cache} {seen : List EntryRef} {ref : EntryRef}

theorem Walked.nil (c : Cache) : Walked [] c c := ⟨fun _ => by simp, fun _ _ => rfl⟩

theorem Walked.skip (h : Walked seen c c') (hkept : ¬ c.Evictable ref) :
    Walked (ref :: seen) c c' := by
  refine ⟨fun ref' => (h.lru ref').trans (and_congr_right fun _ => not_congr ?_), h.entries⟩
  refine and_congr_left fun hevict => ?_
  have hne : ref' ≠ ref := fun heq => hkept (heq ▸ hevict)
  simp [hne]

theorem Walked.delete {key : UInt32} {entry : CacheEntry}
    (h : Walked seen (c.delete key ref entry) c') (hnodup : c.lru.Nodup)
    (hevict : c.Evictable ref) :
    Walked (ref :: seen) c c' := by
  have hothers : ∀ ref' ≠ ref, (c.delete key ref entry).entries ref' = c.entries ref' :=
    fun ref' hne => update_of_ne hne _ _
  have hmem : ∀ ref', ref' ∈ (c.delete key ref entry).lru ↔ ref' ≠ ref ∧ ref' ∈ c.lru :=
    fun _ => hnodup.mem_erase_iff
  refine ⟨fun ref' => ?_, fun ref' href' => ?_⟩
  · rw [h.lru, hmem]
    by_cases hne : ref' = ref
    · simp [hne, hevict]
    · simp [hne, Evictable, hothers ref' hne]
  · have hne := ((hmem ref').mp ((h.lru ref').mp href').1).1
    rw [h.entries ref' href', hothers ref' hne]

-- The walk ends in front of `rest`.
theorem gcLoop_walked (below : UInt64 → Bool) (l : List EntryRef) {c : Cache}
    (hnodup : c.lru.Nodup) :
    ∃ seen rest, l = seen ++ rest ∧ Walked seen c (gcLoop below l c) ∧
      (rest = [] ∨ below (gcLoop below l c).cost = true) := by
  induction l generalizing c with
  | nil => exact ⟨[], [], rfl, .nil c, .inl rfl⟩
  | cons ref l ih =>
    rw [gcLoop]
    split
    case isTrue hbelow => exact ⟨[], ref :: l, rfl, .nil c, .inr hbelow⟩
    case isFalse =>
      rcases htry : c.tryDelete (·.key) ref with _ | c₁
      · have hkept : ¬ c.Evictable ref := by
          rintro ⟨entry, hentry, hfree, hdemoting⟩
          simp [tryDelete, hentry, hfree, hdemoting] at htry
        obtain ⟨seen, rest, hl, hwalked, hend⟩ := ih hnodup
        exact ⟨ref :: seen, rest, congrArg _ hl, hwalked.skip hkept, hend⟩
      · obtain ⟨entry, hentry, hfree, hdemoting, rfl⟩ := tryDelete_eq_some htry
        have hnodup₁ : (c.delete entry.key ref entry).lru.Nodup := hnodup.erase ref
        obtain ⟨seen, rest, hl, hwalked, hend⟩ := ih hnodup₁
        exact ⟨ref :: seen, rest, congrArg _ hl,
          hwalked.delete hnodup ⟨entry, hentry, hfree, hdemoting⟩, hend⟩

/-- Evictable entries are gone, from the least recently used on, and the cost is low enough or there
are no more of them. -/
structure Evicted (below : UInt64 → Bool) (c c' : Cache) : Prop where
  lru : c'.lru ⊆ c.lru
  evictable : ∀ ref ∈ c.lru, ref ∉ c'.lru → c.Evictable ref
  oldest : ∀ older ref newer, c.lru = older ++ ref :: newer → ref ∉ c'.lru →
    ∀ ref' ∈ older, c.Evictable ref' → ref' ∉ c'.lru
  enough : below c'.cost = true ∨ ∀ ref ∈ c'.lru, ¬ c'.Evictable ref

theorem Walked.evicted {below : UInt64 → Bool} {rest : List EntryRef} (h : Walked seen c c')
    (hnodup : c.lru.Nodup) (hlru : c.lru = seen ++ rest)
    (hend : rest = [] ∨ below c'.cost = true) : Evicted below c c' := by
  have hgone : ∀ ref ∈ c.lru, ref ∉ c'.lru → ref ∈ seen ∧ c.Evictable ref :=
    fun ref hmem hnot => by_contra fun hkept => hnot ((h.lru ref).mpr ⟨hmem, hkept⟩)
  refine ⟨fun ref href => ((h.lru ref).mp href).1, fun ref hmem hnot => (hgone ref hmem hnot).2,
    ?_, ?_⟩
  · intro older ref newer heq hnot ref' href' hevict hstays
    -- `ref` has been seen, so all before it has
    have hseen := (hgone ref (heq ▸ mem_append_cons_self) hnot).1
    have hsub : older ⊆ seen := by
      rcases append_eq_append_iff.mp (heq.symm.trans hlru) with ⟨l, rfl, -⟩ | ⟨l, rfl, hrest⟩
      · exact subset_append_left _ _
      · have hdisjoint := disjoint_of_nodup_append (hlru ▸ hnodup)
        exact absurd (hrest ▸ mem_append_cons_self) (hdisjoint hseen)
    exact ((h.lru ref').mp hstays).2 ⟨hsub href', hevict⟩
  · refine hend.symm.imp_right fun hrest ref href hevict => ?_
    obtain ⟨hmem, hkept⟩ := (h.lru ref).mp href
    rw [hrest, append_nil] at hlru
    rw [Evictable, h.entries ref href] at hevict
    exact hkept ⟨hlru ▸ hmem, hevict⟩

end Cache

def quotaTwo : CacheSetup := ⟨false, 2, id⟩

-- two entries, of which the first is not locked
def twoEntries : Cache :=
  cacheStep quotaTwo (cacheStep quotaTwo (cacheStep quotaTwo dtCacheInit (.get 0 1 .read 1))
    (.get 0 2 .read 1)) (.release 0 0)

end DTLite
