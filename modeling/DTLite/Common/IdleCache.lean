import DTLite.Common.Cache
import DTLite.Reasoning.Lru

/-!
# A cache at rest

What a get and its release do to a cache while nobody else holds a lock. If no entry at all is
locked, and all cost the same, the cache is no more than the list of its keys in the order of their
use.
-/

namespace DTLite

open Reasoning List Option Function

namespace Cache

def freeEntry (cost : UInt64) (key : UInt32) : CacheEntry := ⟨cost, .shared [], false, key⟩

/-- The entry of a key, if there is one, is not locked. -/
def Unlocked (c : Cache) (key : UInt32) : Prop :=
  ∀ ref, c.hashtable key = some ref → ∃ cost, c.entries ref = some (freeEntry cost key)

def cleanedUp (setup : CacheSetup) (c : Cache) : Cache :=
  if setup.aboveQuota c.cost then dtCacheGc setup c (4 / 5) else c

def insertFree (c : Cache) (key : UInt32) (cost : UInt64) : Cache where
  cost := c.cost + cost
  hashtable := update c.hashtable key (some c.next)
  lru := c.lru ++ [c.next]
  entries := update c.entries c.next (some (freeEntry cost key))
  next := c.next + 1

variable {c c' : Cache} {setup : CacheSetup} {key : UInt32} {ref : EntryRef} {mode : LockMode}
variable {t : ThreadId} {size : UInt64}

theorem exists_tryLock (mode : LockMode) (t : ThreadId) :
    ∃ lock, mode.tryLock (.shared []) t = some lock ∧ lock.unlock t = .shared [] := by
  cases mode with
  | read => exact ⟨.shared [t], rfl, by simp [RwLock.unlock]⟩
  | write => exact ⟨.written t, rfl, if_pos rfl⟩

theorem get_of_found {cost : UInt64} (hkey : c.hashtable key = some ref)
    (hentry : c.entries ref = some (freeEntry cost key)) (setup : CacheSetup) (mode : LockMode)
    (t : ThreadId) (size : UInt64) :
    ∃ c', dtCacheGet setup c key mode t size = (c', some ref) ∧
      dtCacheRelease c' ref t = { c with lru := c.lru.erase ref ++ [ref] } := by
  obtain ⟨lock, htry, hunlock⟩ := exists_tryLock mode t
  refine ⟨{ c with
    entries := update c.entries ref (some ⟨cost, lock, false, key⟩)
    lru := c.lru.erase ref ++ [ref] }, ?_, ?_⟩
  · simp [dtCacheGet, hkey, dtCacheTestget, lockEntry, hentry, freeEntry, htry, setEntry]
  · simp [dtCacheRelease, setEntry, hunlock, hentry, freeEntry]

theorem release_insert (c : Cache) (setup : CacheSetup) (key : UInt32) (mode : LockMode)
    (t : ThreadId) (cost : UInt64) :
    dtCacheRelease (c.insert setup key mode t cost) c.next t = c.insertFree key cost := by
  have hunlock : (if mode = .write ∨ setup.allocates = true then RwLock.written t
      else .shared [t]).unlock t = .shared [] := by
    split <;> simp [RwLock.unlock]
  simp [dtCacheRelease, setEntry, Cache.insert, insertFree, hunlock, freeEntry]

theorem get_of_missing (hkey : c.hashtable key = none) (setup : CacheSetup) (mode : LockMode)
    (t : ThreadId) (size : UInt64) :
    ∃ c', dtCacheGet setup c key mode t size = (c', some (c.cleanedUp setup).next) ∧
      dtCacheRelease c' (c.cleanedUp setup).next t =
        (c.cleanedUp setup).insertFree key (if setup.allocates then size else 1) := by
  refine ⟨(c.cleanedUp setup).insert setup key mode t (if setup.allocates then size else 1), ?_,
    release_insert ..⟩
  simp [dtCacheGet, hkey, cleanedUp]

theorem Consistent.cleanedUp (h : c.Consistent) (setup : CacheSetup) :
    (c.cleanedUp setup).Consistent ∧
      ∀ k r, (c.cleanedUp setup).hashtable k = some r → c.hashtable k = some r := by
  rw [Cache.cleanedUp]
  split
  · apply h.gc_keeps (P := fun c' => ∀ k r, c'.hashtable k = some r → c.hashtable k = some r)
    · exact fun _ _ => id
    · intro c₁ c₂ ref _ hsub htry k r hfound
      obtain ⟨entry, -, -, -, rfl⟩ := tryDelete_eq_some htry
      apply hsub
      have hfound : update c₁.hashtable entry.key none k = some r := hfound
      rw [update_apply] at hfound
      split at hfound
      · cases hfound
      · exact hfound
  · exact ⟨h, fun _ _ => id⟩

/-- The cache after a get of the key and its release: the key is there, and no other one is new. -/
structure Visited (c : Cache) (key : UInt32) (ref : EntryRef) (c' : Cache) : Prop where
  consistent : c'.Consistent
  found : c'.hashtable key = some ref
  unlocked : c'.Unlocked key
  others : ∀ k r, k ≠ key → c'.hashtable k = some r → c.hashtable k = some r ∧ r ≠ ref

theorem Consistent.visit (h : c.Consistent) (hfree : c.Unlocked key) (setup : CacheSetup)
    (mode : LockMode) (t : ThreadId) (size : UInt64) :
    ∃ c' ref, dtCacheGet setup c key mode t size = (c', some ref) ∧
      (∀ r, c.hashtable key = some r → r = ref) ∧ c.Visited key ref (dtCacheRelease c' ref t) := by
  have hconsistent := (h.get setup key mode t size).release
  cases hkey : c.hashtable key with
  | some ref =>
    obtain ⟨cost, hentry⟩ := hfree ref hkey
    obtain ⟨c', hget, hrelease⟩ := get_of_found hkey hentry setup mode t size
    refine ⟨c', ref, hget, fun r hr => (some.inj hr).symm, ?_⟩
    rw [hget] at hconsistent
    refine ⟨hconsistent ref t, ?_, ?_, ?_⟩ <;> rw [hrelease]
    · exact hkey
    · exact hfree
    · intro k r hne hfound
      refine ⟨hfound, fun heq => hne ?_⟩
      rw [heq] at hfound
      have hk := ((h.lookup k ref).mp hfound).2
      exact some.inj (hk.symm.trans ((h.lookup key ref).mp hkey).2)
  | none =>
    obtain ⟨c', hget, hrelease⟩ := get_of_missing hkey setup mode t size
    obtain ⟨hclean, hsub⟩ := h.cleanedUp setup
    refine ⟨c', _, hget, fun r hr => (by cases hr), ?_⟩
    rw [hget] at hconsistent
    refine ⟨hconsistent _ t, ?_, ?_, ?_⟩ <;> rw [hrelease]
    · exact update_self ..
    · intro r hr
      cases (update_self ..).symm.trans hr
      exact ⟨_, update_self ..⟩
    · intro k r hne hfound
      have hfound : (c.cleanedUp setup).hashtable k = some r :=
        (update_of_ne hne _ _).symm.trans hfound
      refine ⟨hsub k r hfound, fun heq => hclean.next_not_mem ?_⟩
      rw [← heq]
      exact ((hclean.lookup k r).mp hfound).1

theorem hashtable_remove (hfree : c.Unlocked key) :
    (dtCacheRemove c key).hashtable = update c.hashtable key none := by
  rw [dtCacheRemove]
  cases hkey : c.hashtable key with
  | none => rw [← hkey, update_eq_self, hkey, bind_none, getD_none]
  | some ref =>
    obtain ⟨cost, hentry⟩ := hfree ref hkey
    simp [tryDelete, hentry, freeEntry, RwLock.isFree, Cache.delete]

def keyAt (c : Cache) (ref : EntryRef) : UInt32 := (c.keyOf ref).getD 0

/-- The keys in the order of their use. -/
def keys (c : Cache) : List UInt32 := c.lru.map c.keyAt

section

variable (h : c.Consistent)
include h

theorem Consistent.keyOf_eq (href : ref ∈ c.lru) : c.keyOf ref = some (c.keyAt ref) := by
  obtain ⟨entry, hentry⟩ := isSome_iff_exists.mp (h.inMemory ref href)
  rw [keyAt, keyOf, hentry]
  rfl

theorem Consistent.keyAt_eq_iff (href : ref ∈ c.lru) :
    c.keyAt ref = key ↔ c.hashtable key = some ref := by
  rw [h.lookup, h.keyOf_eq href, some.injEq]
  exact ⟨fun heq => ⟨href, heq⟩, And.right⟩

theorem Consistent.mem_keys : key ∈ c.keys ↔ ∃ ref, c.hashtable key = some ref := by
  rw [keys, List.mem_map]
  constructor
  · intro ⟨ref, href, hkey⟩
    exact ⟨ref, (h.keyAt_eq_iff href).mp hkey⟩
  · intro ⟨ref, hfound⟩
    have href := ((h.lookup key ref).mp hfound).1
    exact ⟨ref, href, (h.keyAt_eq_iff href).mpr hfound⟩

theorem Consistent.nodup_keys : c.keys.Nodup := by
  apply h.nodup.map_on
  intro ref href ref' href' heq
  have hfound := (h.keyAt_eq_iff href).mp heq
  have hfound' := (h.keyAt_eq_iff href').mp rfl
  exact some.inj (hfound.symm.trans hfound')

theorem Consistent.map_erase (hkey : c.hashtable key = some ref) :
    (c.lru.erase ref).map c.keyAt = c.keys.erase key := by
  rw [h.nodup.erase_eq_filter, h.nodup_keys.erase_eq_filter, keys, List.filter_map]
  congr 1
  apply filter_congr
  intro ref' href'
  have hiff : ref' = ref ↔ c.keyAt ref' = key := by
    rw [h.keyAt_eq_iff href', hkey, some.injEq, eq_comm]
  simp [hiff, bne]

end

/-- No entry is locked, and all cost the same. -/
structure Idle (size : UInt64) (c : Cache) : Prop where
  consistent : c.Consistent
  free : ∀ ref ∈ c.lru, c.entries ref = some (freeEntry size (c.keyAt ref))

namespace Idle

theorem unlocked (h : Idle size c) (key : UInt32) : c.Unlocked key := by
  intro ref hfound
  have href := ((h.consistent.lookup key ref).mp hfound).1
  refine ⟨size, ?_⟩
  rw [h.free ref href, (h.consistent.keyAt_eq_iff href).mpr hfound]

theorem sum_replicate (n : Nat) (size : UInt64) :
    (replicate n size).sum = UInt64.ofNat n * size := by
  induction n with
  | zero => exact (UInt64.zero_mul).symm
  | succ n ih =>
    rw [replicate_succ, sum_cons, ih, UInt64.ofNat_add, UInt64.add_mul, UInt64.add_comm]
    exact congrArg (UInt64.ofNat n * size + ·) (UInt64.one_mul size).symm

section

variable (h : Idle size c)
include h

theorem cost : c.cost = UInt64.ofNat c.lru.length * size := by
  have hcosts : c.lru.map c.costOf = replicate c.lru.length size := by
    rw [eq_replicate_iff, length_map]
    refine ⟨rfl, fun cost hcost => ?_⟩
    obtain ⟨ref, href, rfl⟩ := mem_map.mp hcost
    rw [costOf, h.free ref href]
    rfl
  rw [h.consistent.cost, hcosts, sum_replicate]

section

variable (hfound : c.hashtable key = some ref)
include hfound

theorem entry :
    c.entries ref = some (freeEntry size key) := by
  have href := ((h.consistent.lookup key ref).mp hfound).1
  rw [h.free ref href, (h.consistent.keyAt_eq_iff href).mpr hfound]

theorem delete :
    Idle size (c.delete key ref (freeEntry size key)) ∧
      (c.delete key ref (freeEntry size key)).keys = c.keys.erase key := by
  have hat : ∀ ref' ∈ c.lru.erase ref,
      (c.delete key ref (freeEntry size key)).keyAt ref' = c.keyAt ref' := by
    intro ref' href'
    rw [keyAt, delete_keyOf, update_of_ne (h.consistent.nodup.mem_erase_iff.mp href').1]
    rfl
  constructor
  · refine ⟨h.consistent.delete hfound (h.entry hfound), fun ref' href' => ?_⟩
    rw [hat ref' href']
    obtain ⟨hne, hmem⟩ := h.consistent.nodup.mem_erase_iff.mp href'
    exact (update_of_ne hne _ _).trans (h.free ref' hmem)
  · rw [← h.consistent.map_erase hfound]
    exact map_congr_left hat

theorem tryDelete {keyFor : CacheEntry → UInt32} (hkey : keyFor (freeEntry size key) = key) :
    c.tryDelete keyFor ref = some (c.delete key ref (freeEntry size key)) := by
  rw [Cache.tryDelete, h.entry hfound, bind_some, hkey]
  rfl

end

theorem remove (key : UInt32) : Idle size (dtCacheRemove c key) := by
  rw [dtCacheRemove]
  cases hfound : c.hashtable key with
  | none => exact h
  | some ref =>
    rw [bind_some, h.tryDelete hfound rfl]
    exact (h.delete hfound).1

end

end Idle

/-! ## How many entries are kept -/

/-- What the loop of `dt_cache_gc` leaves of `n` entries of one size. -/
def gcKeeps (below : UInt64 → Bool) (size : UInt64) : Nat → Nat
  | 0 => 0
  | n + 1 => if below (UInt64.ofNat (n + 1) * size) then n + 1 else gcKeeps below size n

/-- What `dt_cache_get` leaves of `n` entries of one size before it adds a new one. -/
def keeps (setup : CacheSetup) (size : UInt64) (n : Nat) : Nat :=
  if setup.aboveQuota (UInt64.ofNat n * size) then gcKeeps (setup.belowRatio (4 / 5)) size n else n

theorem gcKeeps_le (below : UInt64 → Bool) (size : UInt64) (n : Nat) :
    gcKeeps below size n ≤ n := by
  induction n with
  | zero => exact Nat.le_refl 0
  | succ n ih =>
    rw [gcKeeps]
    split <;> omega

theorem gcKeeps_le_of_not_below {below : UInt64 → Bool} {k n : Nat}
    (h : ∀ m, k < m → m ≤ n → below (UInt64.ofNat m * size) = false) :
    gcKeeps below size n ≤ k := by
  induction n with
  | zero => exact Nat.zero_le k
  | succ n ih =>
    rw [gcKeeps]
    by_cases hk : k < n + 1
    · rw [h (n + 1) hk (Nat.le_refl _)]
      exact ih fun m hm hle => h m hm (by omega)
    · split
      · omega
      · have hle := gcKeeps_le below size n
        omega

theorem keeps_le_of_full {k n : Nat} (hn : k < n)
    (h : ∀ m, k < m → m ≤ n → setup.aboveQuota (UInt64.ofNat m * size) = true ∧
      setup.belowRatio (4 / 5) (UInt64.ofNat m * size) = false) :
    keeps setup size n ≤ k := by
  rw [keeps, (h n hn (Nat.le_refl n)).1]
  exact gcKeeps_le_of_not_below fun m hm hle => (h m hm hle).2

theorem Idle.gcLoop {below : UInt64 → Bool} (l : List EntryRef) :
    ∀ c : Cache, c.lru = l → Idle size c →
      Idle size (gcLoop below l c) ∧
        (gcLoop below l c).keys = c.keys.drop (l.length - gcKeeps below size l.length) := by
  induction l with
  | nil => exact fun c _ h => ⟨h, rfl⟩
  | cons ref l ih =>
    intro c hlru h
    have hhead : ref ∈ c.lru := hlru ▸ mem_cons_self
    have hcost := h.cost
    rw [hlru, length_cons] at hcost
    rw [DTLite.gcLoop, length_cons, gcKeeps, ← hcost]
    split
    · rw [Nat.sub_self]
      exact ⟨h, rfl⟩
    · have hfound := (h.consistent.keyAt_eq_iff hhead).mp rfl
      rw [h.tryDelete hfound rfl, getD_some]
      obtain ⟨hidle, hkeys⟩ := h.delete hfound
      have herase : (c.delete (c.keyAt ref) ref (freeEntry size (c.keyAt ref))).lru = l := by
        show c.lru.erase ref = l
        rw [hlru, erase_cons_head]
      obtain ⟨hrest, hdrop⟩ := ih _ herase hidle
      refine ⟨hrest, ?_⟩
      have hle := gcKeeps_le below size l.length
      rw [hdrop, hkeys, keys, hlru, map_cons, erase_cons_head,
        show l.length + 1 - gcKeeps below size l.length = l.length - gcKeeps below size l.length + 1
          by omega, drop_succ_cons]

theorem Idle.cleanedUp (h : Idle size c) (setup : CacheSetup) :
    Idle size (c.cleanedUp setup) ∧
      (c.cleanedUp setup).keys = c.keys.drop (c.keys.length - keeps setup size c.keys.length) := by
  have hlength : c.keys.length = c.lru.length := length_map ..
  rw [Cache.cleanedUp, keeps, hlength, ← h.cost]
  split
  · exact Idle.gcLoop c.lru c rfl h
  · rw [Nat.sub_self]
    exact ⟨h, rfl⟩

theorem Idle.insertFree (h : Idle size c) (hkey : c.hashtable key = none) (setup : CacheSetup) :
    Idle size (c.insertFree key size) ∧ (c.insertFree key size).keys = c.keys ++ [key] := by
  have hconsistent := (h.consistent.insert setup hkey .read 0 size).release c.next 0
  rw [release_insert] at hconsistent
  have hat : ∀ ref ∈ c.lru, (c.insertFree key size).keyAt ref = c.keyAt ref := by
    intro ref href
    show ((update c.entries c.next _ ref).map CacheEntry.key).getD 0 = _
    rw [update_of_ne (ne_of_mem_of_not_mem href h.consistent.next_not_mem)]
    rfl
  have hnext : (c.insertFree key size).keyAt c.next = key := by
    show ((update c.entries c.next _ c.next).map CacheEntry.key).getD 0 = key
    rw [update_self]
    rfl
  constructor
  · refine ⟨hconsistent, fun ref href => ?_⟩
    rcases mem_append.mp href with hold | hnew
    · rw [hat ref hold]
      have hne := ne_of_mem_of_not_mem hold h.consistent.next_not_mem
      exact (update_of_ne hne _ _).trans (h.free ref hold)
    · rw [mem_singleton.mp hnew, hnext]
      exact update_self ..
  · show (c.lru ++ [c.next]).map _ = _
    rw [map_append, map_singleton, hnext, map_congr_left hat]
    rfl

theorem Idle.visit (h : Idle size c) (hallocates : setup.allocates = true)
    (hget : dtCacheGet setup c key mode t size = (c', some ref)) :
    Idle size (dtCacheRelease c' ref t) ∧
      (dtCacheRelease c' ref t).keys = use (keeps setup size) c.keys key := by
  have hmem : key ∈ c.keys ↔ ∃ ref, c.hashtable key = some ref := h.consistent.mem_keys
  cases hkey : c.hashtable key with
  | some ref₀ =>
    obtain ⟨cost, hentry⟩ := h.unlocked key ref₀ hkey
    obtain ⟨c₀, hget₀, hrelease⟩ := get_of_found hkey hentry setup mode t size
    obtain ⟨rfl, hsome⟩ := Prod.mk.inj (hget₀.symm.trans hget)
    obtain rfl : ref₀ = ref := some.inj hsome
    have hconsistent := (h.consistent.get setup key mode t size).release ref₀ t
    have href := ((h.consistent.lookup key ref₀).mp hkey).1
    rw [hget₀, hrelease] at hconsistent
    rw [hrelease, use_of_mem (hmem.mpr ⟨ref₀, hkey⟩)]
    refine ⟨⟨hconsistent, fun ref href' => h.free ref ?_⟩, ?_⟩
    · rcases mem_append.mp href' with hold | hnew
      · exact mem_of_mem_erase hold
      · rw [mem_singleton.mp hnew]
        exact href
    · show (c.lru.erase ref₀ ++ [ref₀]).map c.keyAt = _
      rw [map_append, map_singleton, h.consistent.map_erase hkey,
        (h.consistent.keyAt_eq_iff href).mpr hkey]
  | none =>
    obtain ⟨c₀, hget₀, hrelease⟩ := get_of_missing hkey setup mode t size
    obtain ⟨rfl, hsome⟩ := Prod.mk.inj (hget₀.symm.trans hget)
    cases some.inj hsome
    obtain ⟨hclean, hkeys⟩ := h.cleanedUp setup
    have hnone : (c.cleanedUp setup).hashtable key = none := by
      apply eq_none_iff_forall_not_mem.mpr
      intro r hr
      cases hkey.symm.trans ((h.consistent.cleanedUp setup).2 key r hr)
    have hnew : key ∉ c.keys := fun hin => by
      obtain ⟨r, hr⟩ := hmem.mp hin
      cases hkey.symm.trans hr
    rw [hrelease, hallocates, use_of_not_mem hnew, ← hkeys]
    exact hclean.insertFree hnone setup

end Cache

end DTLite
