import DTLite.Reasoning.Runs
import DTLite.Reasoning.Table
import Mathlib.Data.UInt

/-!
# The cache of a pixelpipe

A few lines with the buffers that the modules of a pipe have written.  A get that finds no line with
its hash takes the line that has not been used for the longest time; each get counts up the ages of
all the lines.
-/

namespace DTLite

open Reasoning List Option

/-- A buffer is told from the others by the number of its allocation. -/
abbrev PixelBuffer := Nat

/-- `data[k]`, `size[k]`, `dsc[k]`, `basichash[k]`, `hash[k]` and `used[k]`. -/
structure CacheLine (δ : Type) where
  data : Option PixelBuffer
  size : Nat
  dsc : δ
  basichash : UInt64
  hash : UInt64
  -- an `int32_t`
  used : Int
deriving DecidableEq, Repr

/-- `dt_dev_pixelpipe_cache_t`. -/
structure PixelpipeCache (δ : Type) where
  lines : List (CacheLine δ)
  next : PixelBuffer
deriving DecidableEq, Repr

open PixelpipeCache

-- `-1` as a hash: nothing is in the line.
def noHash : UInt64 := 0xffffffffffffffff

-- The value of an `int32_t` that overflows.
def int32 (x : Int) : Int := (x + 2147483648) % 4294967296 - 2147483648

section Functions

variable {δ : Type}

def dtDevPixelpipeCacheInit (entries size : Nat) (dsc : δ) : PixelpipeCache δ where
  lines := (List.range entries).map fun k =>
    { data := if size = 0 then none else some k
      size := size
      dsc := dsc
      basichash := noHash
      hash := noHash
      used := 0 }
  next := entries

structure LineSearch (δ : Type) where
  maxUsed : Int
  max : Nat
  data : Option PixelBuffer
  size : Nat
  dsc : δ

-- "search for hash in cache" and "age all entries".
def searchLines (hash : UInt64) (weight : Int) :
    Nat → LineSearch δ → List (CacheLine δ) → LineSearch δ × List (CacheLine δ)
  | _, s, [] => (s, [])
  | k, s, line :: lines =>
      let s := if s.maxUsed < line.used then { s with maxUsed := line.used, max := k } else s
      if line.hash = hash then
        let s := { s with data := line.data, size := line.size, dsc := line.dsc }
        let rest := searchLines hash weight (k + 1) s lines
        (rest.1, { line with used := weight } :: rest.2)
      else
        let rest := searchLines hash weight (k + 1) s lines
        (rest.1, { line with used := int32 (line.used + 1) } :: rest.2)

-- "kill LRU entry".
def CacheLine.kill (line : CacheLine δ) (next : PixelBuffer) (basichash hash : UInt64) (size : Nat)
    (dsc : δ) (weight : Int) : CacheLine δ where
  data := if line.size < size then some next else line.data
  size := if line.size < size then size else line.size
  dsc := dsc
  basichash := basichash
  hash := hash
  used := weight

variable (c : PixelpipeCache δ) (basichash hash : UInt64) (size : Nat)

/-- With `*data`, `**dsc` and whether the caller has to fill the buffer. -/
def dtDevPixelpipeCacheGetWeighted (dsc : δ) (weight : Int) :
    PixelpipeCache δ × Option PixelBuffer × δ × Bool :=
  let found := searchLines hash weight 0 ⟨-1, 0, none, 0, dsc⟩ c.lines
  let s := found.1
  if s.data = none ∨ s.size < size then
    match found.2[s.max]? with
    | some line =>
        let killed := line.kill c.next basichash hash size s.dsc weight
        ({ lines := found.2.set s.max killed
           next := if line.size < size then c.next + 1 else c.next },
          killed.data, s.dsc, true)
    | none => ({ c with lines := found.2 }, none, s.dsc, true)
  else ({ c with lines := found.2 }, s.data, s.dsc, false)

def dtDevPixelpipeCacheGetImportant (dsc : δ) : PixelpipeCache δ × Option PixelBuffer × δ × Bool :=
  dtDevPixelpipeCacheGetWeighted c basichash hash size dsc (-c.lines.length)

def dtDevPixelpipeCacheGet (dsc : δ) :
    PixelpipeCache δ × Option PixelBuffer × δ × Bool :=
  dtDevPixelpipeCacheGetWeighted c basichash hash size dsc 0

def dtDevPixelpipeCacheFlush (c : PixelpipeCache δ) : PixelpipeCache δ :=
  { c with lines := c.lines.map fun line =>
      { line with basichash := noHash, hash := noHash, used := 0 } }

def dtDevPixelpipeCacheReweight (data : Option PixelBuffer) :
    PixelpipeCache δ :=
  { c with lines := c.lines.map fun line =>
      if line.data = data then { line with used := -c.lines.length } else line }

end Functions

/-- What the callers have done: the gets, the last one first, and how many important gets and
reweights there were since the last flush. -/
structure CacheRun (δ : Type) where
  cache : PixelpipeCache δ
  gets : List (UInt64 × Option PixelBuffer)
  importants : Nat
  reweights : Nat
  -- there was no get since the last flush
  flushed : Bool
deriving DecidableEq, Repr

open CacheRun

inductive CacheCall (δ : Type) where
  | get (important : Bool) (basichash hash : UInt64) (size : Nat) (dsc : δ)
  | reweight (data : Option PixelBuffer)
  | flush
deriving DecidableEq, Repr

def CacheRun.init {δ : Type} (entries size : Nat) (dsc : δ) : CacheRun δ where
  cache := dtDevPixelpipeCacheInit entries size dsc
  gets := []
  importants := 0
  reweights := 0
  flushed := true

def cacheCall {δ : Type} (s : CacheRun δ) : CacheCall δ → CacheRun δ
  | .get important basichash hash size dsc =>
      let got := if important then dtDevPixelpipeCacheGetImportant s.cache basichash hash size dsc
        else dtDevPixelpipeCacheGet s.cache basichash hash size dsc
      { s with
        cache := got.1
        gets := (hash, got.2.1) :: s.gets
        importants := if important then s.importants + 1 else s.importants
        flushed := false }
  | .reweight data =>
      { s with
        cache := dtDevPixelpipeCacheReweight s.cache data
        reweights := s.reweights + 1 }
  | .flush =>
      { s with
        cache := dtDevPixelpipeCacheFlush s.cache
        importants := 0
        reweights := 0
        flushed := true }

namespace CacheRun

variable {δ : Type}

/-- The last get has not returned the buffer of the one before it, unless both are for one hash. -/
def KeepsInput (s : CacheRun δ) : Prop :=
  ∀ hash data hash' data' earlier,
    s.gets = (hash', some data') :: (hash, some data) :: earlier → hash' ≠ hash → data' ≠ data

/-- Each hash has one size, and between two flushes there is at most one important get and at most
one reweight. -/
def Regular (sizes : UInt64 → Nat) (s : CacheRun δ) : CacheCall δ → Prop
  | .get important _ hash size _ => size = sizes hash ∧ (important = true → s.importants = 0)
  | .reweight _ => s.reweights = 0
  | .flush => True

/-- No get asks for nothing or for the hash of an empty line, and no age is about to overflow. The
first get after a flush does not find the buffer that was returned last in the first line that is
not reweighted. Only a buffer is reweighted. -/
def Careful (s : CacheRun δ) : CacheCall δ → Prop
  | .get _ _ hash size _ => hash ≠ noHash ∧ 0 < size ∧
      (∀ line ∈ s.cache.lines, line.used < 2147483647) ∧
      (s.flushed = true → ∀ last ∈ s.gets.head?, ∀ line ∈ s.cache.lines.find? (0 ≤ ·.used),
        last.2 ≠ line.data)
  | .reweight data => data ≠ none
  | .flush => True

instance (sizes : UInt64 → Nat) (s : CacheRun δ) (call : CacheCall δ) :
    Decidable (s.Regular sizes call) :=
  match call with
  | .get .. => inferInstanceAs (Decidable (_ ∧ (_ → _)))
  | .reweight _ => inferInstanceAs (Decidable (_ = _))
  | .flush => isTrue trivial

instance (s : CacheRun δ) (call : CacheCall δ) : Decidable (s.Careful call) :=
  match call with
  | .get .. => inferInstanceAs (Decidable (_ ∧ _ ∧ (∀ line ∈ _, _) ∧ (_ → _)))
  | .reweight _ => inferInstanceAs (Decidable (_ ≠ _))
  | .flush => isTrue trivial

end CacheRun

/-! ## One get -/

section Search

variable {δ : Type} {hash : UInt64} {weight : Int}

def CacheLine.aged (hash : UInt64) (weight : Int) (line : CacheLine δ) : CacheLine δ :=
  { line with used := if line.hash = hash then weight else int32 (line.used + 1) }

theorem searchLines_snd (lines : List (CacheLine δ)) (k : Nat) (s : LineSearch δ) :
    (searchLines hash weight k s lines).2 = lines.map (CacheLine.aged hash weight) := by
  induction lines generalizing k s with
  | nil => rfl
  | cons line lines ih =>
    rw [searchLines]
    by_cases hline : line.hash = hash
    · simp [hline, ih, CacheLine.aged]
    · simp [hline, ih, CacheLine.aged]

variable {lines : List (CacheLine δ)}

theorem searchLines_of_ne (hne : ∀ line ∈ lines, line.hash ≠ hash) (k : Nat) (s : LineSearch δ) :
    (searchLines hash weight k s lines).1.data = s.data ∧
      (searchLines hash weight k s lines).1.size = s.size := by
  induction lines generalizing k s with
  | nil => exact ⟨rfl, rfl⟩
  | cons line lines ih =>
    have hline : line.hash ≠ hash := hne line mem_cons_self
    rw [searchLines, if_neg hline]
    have hrest := ih (fun l hl => hne l (mem_cons_of_mem _ hl)) (k + 1)
      (if s.maxUsed < line.used then { s with maxUsed := line.used, max := k } else s)
    refine hrest.imp ?_ ?_
    all_goals
      intro h
      refine h.trans ?_
      split <;> rfl

theorem searchLines_of_mem {found : CacheLine δ} (hmem : found ∈ lines)
    (hfound : found.hash = hash) (hone : ∀ line ∈ lines, line.hash = hash → line = found)
    (k : Nat) (s : LineSearch δ) :
    (searchLines hash weight k s lines).1.data = found.data ∧
      (searchLines hash weight k s lines).1.size = found.size := by
  induction lines generalizing k s with
  | nil => cases hmem
  | cons line lines ih =>
    have hone' : ∀ l ∈ lines, l.hash = hash → l = found :=
      fun l hl => hone l (mem_cons_of_mem _ hl)
    rw [searchLines]
    by_cases hline : line.hash = hash
    · rw [if_pos hline]
      rw [hone line mem_cons_self hline]
      by_cases hlater : found ∈ lines
      · exact ih hlater hone' _ _
      · apply searchLines_of_ne
        intro l hl heq
        exact hlater (hone' l hl heq ▸ hl)
    · rw [if_neg hline]
      have hlater : found ∈ lines := by
        rcases mem_cons.mp hmem with rfl | hlater
        · exact absurd hfound hline
        · exact hlater
      exact ih hlater hone' _ _

theorem searchLines_cons (line : CacheLine δ) (lines : List (CacheLine δ)) (k : Nat)
    (s : LineSearch δ) :
    ∃ s', (searchLines hash weight k s (line :: lines)).1 =
        (searchLines hash weight (k + 1) s' lines).1 ∧
      (s.maxUsed < line.used ∧ s'.maxUsed = line.used ∧ s'.max = k ∨
        line.used ≤ s.maxUsed ∧ s'.maxUsed = s.maxUsed ∧ s'.max = s.max) := by
  rw [searchLines]
  by_cases hold : s.maxUsed < line.used
  · rw [if_pos hold]
    by_cases hline : line.hash = hash
    · exact ⟨_, by rw [if_pos hline], .inl ⟨hold, rfl, rfl⟩⟩
    · exact ⟨_, by rw [if_neg hline], .inl ⟨hold, rfl, rfl⟩⟩
  · rw [if_neg hold]
    by_cases hline : line.hash = hash
    · exact ⟨{ s with data := line.data, size := line.size, dsc := line.dsc },
        by rw [if_pos hline], .inr ⟨Int.not_lt.mp hold, rfl, rfl⟩⟩
    · exact ⟨_, by rw [if_neg hline], .inr ⟨Int.not_lt.mp hold, rfl, rfl⟩⟩

theorem searchLines_max (lines : List (CacheLine δ)) (k : Nat) (s : LineSearch δ) :
    ((∀ line ∈ lines, line.used ≤ s.maxUsed) ∧
      (searchLines hash weight k s lines).1.max = s.max) ∨
    ∃ j line, lines[j]? = some line ∧ (searchLines hash weight k s lines).1.max = k + j ∧
      s.maxUsed < line.used ∧ ∀ other ∈ lines, other.used ≤ line.used := by
  induction lines generalizing k s with
  | nil => exact .inl ⟨fun _ h => absurd h not_mem_nil, rfl⟩
  | cons line lines ih =>
    obtain ⟨s', heq, hs'⟩ := @searchLines_cons δ hash weight line lines k s
    rw [heq]
    rcases ih (k + 1) s' with ⟨hle, hmax⟩ | ⟨j, found, hfound, hmax, hlt, hle⟩
    · rcases hs' with ⟨hold, hused, hk⟩ | ⟨hnot, hused, hk⟩
      · refine .inr ⟨0, line, rfl, hmax.trans hk, hold, ?_⟩
        intro other hother
        rcases mem_cons.mp hother with rfl | hother
        · exact Int.le_refl _
        · exact hused ▸ hle other hother
      · refine .inl ⟨?_, hmax.trans hk⟩
        intro other hother
        rcases mem_cons.mp hother with rfl | hother
        · exact hnot
        · exact hused ▸ hle other hother
    · refine .inr ⟨j + 1, found, hfound, by omega, by omega, ?_⟩
      intro other hother
      rcases mem_cons.mp hother with rfl | hother
      · omega
      · exact hle other hother

theorem searchLines_max_of_find (hle : ∀ line ∈ lines, line.used ≤ 0)
    {found : CacheLine δ} (hfound : lines.find? (0 ≤ ·.used) = some found) (k : Nat)
    {s : LineSearch δ} (hs : s.maxUsed = -1) :
    ∃ j, lines[j]? = some found ∧ (searchLines hash weight k s lines).1.max = k + j := by
  induction lines generalizing k s with
  | nil => cases hfound
  | cons line lines ih =>
    have hle' : ∀ l ∈ lines, l.used ≤ 0 := fun l hl => hle l (mem_cons_of_mem _ hl)
    obtain ⟨s', heq, hs'⟩ := @searchLines_cons δ hash weight line lines k s
    rw [heq]
    by_cases hnew : 0 ≤ line.used
    · rw [find?_cons_of_pos (by simpa using hnew)] at hfound
      cases hfound
      refine ⟨0, rfl, ?_⟩
      -- nothing is older than a new line
      rcases searchLines_max lines (k + 1) s' with ⟨-, hmax⟩ | ⟨j, other, hother, -, hlt, -⟩
      · rw [hmax]
        omega
      · have := hle' other (mem_of_getElem? hother)
        omega
    · rw [find?_cons_of_neg (by simpa using hnew)] at hfound
      obtain ⟨j, hj, hmax⟩ := ih hle' hfound (k + 1) (s := s') (by omega)
      exact ⟨j + 1, hj, by omega⟩

end Search

namespace PixelpipeCache

variable {δ : Type} {sizes : UInt64 → Nat} {c c' : PixelpipeCache δ}

/-- Each line has a buffer of its own, and what is in a line is in no other line and has room. -/
structure WellFormed (sizes : UInt64 → Nat) (c : PixelpipeCache δ) : Prop where
  data_inj : ∀ (k k' : Nat) line line' buf, c.lines[k]? = some line → c.lines[k']? = some line' →
    line.data = some buf → line'.data = some buf → k = k'
  hash_inj : ∀ (k k' : Nat) line line', c.lines[k]? = some line → c.lines[k']? = some line' →
    line.hash = line'.hash → line.hash ≠ noHash → k = k'
  old : ∀ (k : Nat) line buf, c.lines[k]? = some line → line.data = some buf → buf < c.next
  allocated : ∀ (k : Nat) line, c.lines[k]? = some line → 0 < line.size → line.data ≠ none
  fits : ∀ (k : Nat) line, c.lines[k]? = some line → line.hash ≠ noHash →
    0 < sizes line.hash ∧ sizes line.hash ≤ line.size

/-- A get that returns the line `v`, which was `before` and is `after` then. -/
structure GetAt (sizes : UInt64 → Nat) (hash : UInt64) (weight : Int) (c c' : PixelpipeCache δ)
    (v : Nat) (before after : CacheLine δ) : Prop where
  was : c.lines[v]? = some before
  self : c'.lines[v]? = some after
  rest : ∀ k ≠ v, c'.lines[k]? = c.lines[k]?.map (CacheLine.aged hash weight)
  length : c'.lines.length = c.lines.length
  hash_eq : after.hash = hash
  used_eq : after.used = weight
  buffer : after.data = before.data ∧ c'.next = c.next ∨
    after.data = some c.next ∧ c'.next = c.next + 1
  filled : after.data ≠ none
  fits : sizes hash ≤ after.size
  others : ∀ (k : Nat) line, c.lines[k]? = some line → line.hash = hash → k = v

theorem WellFormed.getAt_found (h : c.WellFormed sizes) {v : Nat} {found : CacheLine δ}
    (hv : c.lines[v]? = some found) (hhash : found.hash ≠ noHash) (weight : Int) :
    GetAt sizes found.hash weight c
      { c with lines := c.lines.map (CacheLine.aged found.hash weight) } v found
      (found.aged found.hash weight) where
  was := hv
  self := by rw [getElem?_map, hv]; rfl
  rest := fun k _ => getElem?_map
  length := length_map _
  hash_eq := rfl
  used_eq := if_pos rfl
  buffer := .inl ⟨rfl, rfl⟩
  filled := h.allocated v found hv (Nat.lt_of_lt_of_le (h.fits v found hv hhash).1
    (h.fits v found hv hhash).2)
  fits := (h.fits v found hv hhash).2
  others := fun k line hk hline => h.hash_inj k v line found hk hv hline (hline ▸ hhash)

variable {line : CacheLine δ} {hash : UInt64}

theorem WellFormed.getAt_killed (h : c.WellFormed sizes) {v : Nat}
    (hv : c.lines[v]? = some line) (hne : ∀ line ∈ c.lines, line.hash ≠ hash)
    (hsize : 0 < sizes hash) (basichash : UInt64) (dsc : δ) (weight : Int) :
    let killed := (line.aged hash weight).kill c.next basichash hash (sizes hash) dsc weight
    GetAt sizes hash weight c
      { lines := (c.lines.map (CacheLine.aged hash weight)).set v killed
        next := if line.size < sizes hash then c.next + 1 else c.next } v line killed where
  was := hv
  self := by
    apply getElem?_set_self
    rw [length_map]
    exact (List.getElem?_eq_some_iff.mp hv).1
  rest := fun k hk => by rw [List.getElem?_set_ne (Ne.symm hk), List.getElem?_map]
  length := by rw [length_set, length_map]
  hash_eq := rfl
  used_eq := rfl
  buffer := by
    dsimp only [CacheLine.kill, CacheLine.aged]
    split
    · exact .inr ⟨rfl, rfl⟩
    · exact .inl ⟨rfl, rfl⟩
  filled := by
    dsimp only [CacheLine.kill, CacheLine.aged]
    split
    · exact some_ne_none _
    next hroom => exact h.allocated v line hv (by omega)
  fits := by
    dsimp only [CacheLine.kill]
    split <;> omega
  others := fun k other hk heq => absurd heq (hne other (mem_of_getElem? hk))

theorem exists_max_line (hlines : c.lines ≠ []) (hash : UInt64) (weight : Int) (dsc : δ) :
    ∃ line, c.lines[(searchLines hash weight 0 ⟨-1, 0, none, 0, dsc⟩ c.lines).1.max]? =
      some line := by
  rcases @searchLines_max δ hash weight c.lines 0 ⟨-1, 0, none, 0, dsc⟩ with
    ⟨-, hmax⟩ | ⟨j, line, hj, hmax, -, -⟩
  · obtain ⟨line, lines, hcons⟩ := exists_cons_of_ne_nil hlines
    exact ⟨line, by rw [hmax, hcons]; rfl⟩
  · exact ⟨line, by rw [hmax, Nat.zero_add, hj]⟩

theorem WellFormed.getAt (h : c.WellFormed sizes) (hlines : c.lines ≠ [])
    (hhash : hash ≠ noHash) (hsize : 0 < sizes hash) (basichash : UInt64) (dsc : δ) (weight : Int) :
    ∃ v before after, GetAt sizes hash weight c
        (dtDevPixelpipeCacheGetWeighted c basichash hash (sizes hash) dsc weight).1 v before after ∧
      (dtDevPixelpipeCacheGetWeighted c basichash hash (sizes hash) dsc weight).2.1 = after.data ∧
      (before.hash = hash ∨
        v = (searchLines hash weight 0 ⟨-1, 0, none, 0, dsc⟩ c.lines).1.max) := by
  rw [dtDevPixelpipeCacheGetWeighted, searchLines_snd]
  by_cases hfound : ∃ line ∈ c.lines, line.hash = hash
  · obtain ⟨found, hmem, rfl⟩ := hfound
    obtain ⟨v, hv⟩ := mem_iff_getElem?.mp hmem
    have hget := h.getAt_found hv hhash weight
    have hone : ∀ line ∈ c.lines, line.hash = found.hash → line = found := by
      intro line hline heq
      obtain ⟨k, hk⟩ := mem_iff_getElem?.mp hline
      rw [hget.others k line hk heq, hv] at hk
      exact (some.inj hk).symm
    obtain ⟨hdata, hsz⟩ := @searchLines_of_mem δ found.hash weight c.lines found hmem rfl hone 0
      ⟨-1, 0, none, 0, dsc⟩
    have hfilled : found.data ≠ none := hget.filled
    have hfits : sizes found.hash ≤ found.size := hget.fits
    rw [hdata, hsz, if_neg (by simp [hfilled, hfits])]
    exact ⟨v, found, _, hget, rfl, .inl rfl⟩
  · have hne : ∀ line ∈ c.lines, line.hash ≠ hash := fun line hline heq => hfound ⟨line, hline, heq⟩
    obtain ⟨hdata, -⟩ := @searchLines_of_ne δ hash weight c.lines hne 0 ⟨-1, 0, none, 0, dsc⟩
    obtain ⟨line, hv⟩ := exists_max_line hlines hash weight dsc
    rw [if_pos (.inl hdata)]
    simp only [getElem?_map, hv]
    exact ⟨_, line, _, h.getAt_killed hv hne hsize basichash _ weight, rfl, .inr rfl⟩

section GetAt

variable {hash : UInt64} {weight : Int} {v : Nat} {before after : CacheLine δ}

section

variable (hget : GetAt sizes hash weight c c' v before after)
include hget

theorem GetAt.cases {k : Nat}
    {line' : CacheLine δ} (hk : c'.lines[k]? = some line') :
    k = v ∧ line' = after ∨
      k ≠ v ∧ ∃ line, c.lines[k]? = some line ∧ line' = line.aged hash weight ∧
        line.hash ≠ hash := by
  by_cases hv : k = v
  · subst hv
    exact .inl ⟨rfl, some.inj (hk.symm.trans hget.self)⟩
  · rw [hget.rest k hv] at hk
    obtain ⟨line, hline, rfl⟩ := map_eq_some_iff.mp hk
    exact .inr ⟨hv, line, hline, rfl, fun heq => hv (hget.others k line hline heq)⟩

theorem GetAt.data_ne (h : c.WellFormed sizes)
    {k : Nat} (hk : k ≠ v) (hline : c.lines[k]? = some line)
    {buf : PixelBuffer} (hbuf : line.data = some buf) : after.data ≠ some buf := by
  intro hafter
  rcases hget.buffer with ⟨hsame, -⟩ | ⟨hnew, -⟩
  · exact hk (h.data_inj k v line before buf hline hget.was hbuf (hsame ▸ hafter))
  · have hold := h.old k line buf hline hbuf
    rw [hnew] at hafter
    exact absurd (some.inj hafter) (Nat.ne_of_gt hold)

theorem GetAt.next_le : c.next ≤ c'.next := by
  rcases hget.buffer with ⟨-, hnext⟩ | ⟨-, hnext⟩
  · exact hnext.ge
  · exact hnext ▸ Nat.le_succ _

end

theorem WellFormed.of_getAt (h : c.WellFormed sizes) (hsize : 0 < sizes hash)
    (hget : GetAt sizes hash weight c c' v before after) : c'.WellFormed sizes where
  data_inj k k' line line' buf hk hk' hbuf hbuf' := by
    rcases hget.cases hk with ⟨rfl, rfl⟩ | ⟨hne, old, hold, rfl, -⟩
    · rcases hget.cases hk' with ⟨rfl, rfl⟩ | ⟨hne', old', hold', rfl, -⟩
      · rfl
      · exact absurd hbuf (hget.data_ne h hne' hold' hbuf')
    · rcases hget.cases hk' with ⟨rfl, rfl⟩ | ⟨-, old', hold', rfl, -⟩
      · exact absurd hbuf' (hget.data_ne h hne hold hbuf)
      · exact h.data_inj k k' old old' buf hold hold' hbuf hbuf'
  hash_inj k k' line line' hk hk' heq hhash := by
    rcases hget.cases hk with ⟨rfl, rfl⟩ | ⟨-, old, hold, rfl, hother⟩
    · rcases hget.cases hk' with ⟨rfl, rfl⟩ | ⟨-, old', -, rfl, hother'⟩
      · rfl
      · exact absurd (heq.symm.trans hget.hash_eq) hother'
    · rcases hget.cases hk' with ⟨rfl, rfl⟩ | ⟨-, old', hold', rfl, -⟩
      · exact absurd (heq.trans hget.hash_eq) hother
      · exact h.hash_inj k k' old old' hold hold' heq hhash
  old k line buf hk hbuf := by
    rcases hget.cases hk with ⟨rfl, rfl⟩ | ⟨-, line, hline, rfl, -⟩
    · rcases hget.buffer with ⟨hsame, -⟩ | ⟨hnew, hnext'⟩
      · exact Nat.lt_of_lt_of_le (h.old k before buf hget.was (hsame ▸ hbuf)) hget.next_le
      · rw [hnew] at hbuf
        cases hbuf
        exact hnext' ▸ Nat.lt_succ_self _
    · exact Nat.lt_of_lt_of_le (h.old k line buf hline hbuf) hget.next_le
  allocated k line hk hpos := by
    rcases hget.cases hk with ⟨rfl, rfl⟩ | ⟨-, line, hline, rfl, -⟩
    · exact hget.filled
    · exact h.allocated k line hline hpos
  fits k line hk hhash := by
    rcases hget.cases hk with ⟨rfl, rfl⟩ | ⟨-, line, hline, rfl, -⟩
    · rw [hget.hash_eq]
      exact ⟨hsize, hget.fits⟩
    · exact h.fits k line hline hhash

end GetAt

theorem WellFormed.of_map (h : c.WellFormed sizes) {f : CacheLine δ → CacheLine δ}
    (hdata : ∀ line, (f line).data = line.data) (hsize : ∀ line, (f line).size = line.size)
    (hhash : ∀ line, (f line).hash = line.hash ∨ (f line).hash = noHash) :
    { c with lines := c.lines.map f }.WellFormed sizes := by
  have hlines : ∀ (k : Nat) line', (c.lines.map f)[k]? = some line' →
      ∃ line, c.lines[k]? = some line ∧ f line = line' := by
    intro k line' hk
    rw [getElem?_map] at hk
    exact map_eq_some_iff.mp hk
  have hfull : ∀ line, (f line).hash ≠ noHash → (f line).hash = line.hash :=
    fun line => (hhash line).resolve_right
  constructor
  case data_inj =>
    intro k k' line line' buf hk hk' hbuf hbuf'
    obtain ⟨line, hline, rfl⟩ := hlines k line hk
    obtain ⟨line', hline', rfl⟩ := hlines k' line' hk'
    exact h.data_inj k k' line line' buf hline hline' (hdata line ▸ hbuf) (hdata line' ▸ hbuf')
  case hash_inj =>
    intro k k' line line' hk hk' heq hne
    obtain ⟨line, hline, rfl⟩ := hlines k line hk
    obtain ⟨line', hline', rfl⟩ := hlines k' line' hk'
    have hsame := hfull line hne
    have hsame' := hfull line' (heq ▸ hne)
    exact h.hash_inj k k' line line' hline hline' (hsame ▸ hsame' ▸ heq) (hsame ▸ hne)
  case old =>
    intro k line buf hk hbuf
    obtain ⟨line, hline, rfl⟩ := hlines k line hk
    exact h.old k line buf hline (hdata line ▸ hbuf)
  case allocated =>
    intro k line hk hpos
    obtain ⟨line, hline, rfl⟩ := hlines k line hk
    rw [hdata]
    exact h.allocated k line hline (hsize line ▸ hpos)
  case fits =>
    intro k line hk hne
    obtain ⟨line, hline, rfl⟩ := hlines k line hk
    rw [hfull line hne, hsize]
    exact h.fits k line hline (hfull line hne ▸ hne)

theorem WellFormed.exists_with_buffer (h : c.WellFormed sizes) (buf : PixelBuffer) :
    ∃ k, ∀ (j : Nat) line, c.lines[j]? = some line → line.data = some buf → j = k := by
  by_cases hex : ∃ (k : Nat) (line : CacheLine δ), c.lines[k]? = some line ∧ line.data = some buf
  · obtain ⟨k, line, hk, hbuf⟩ := hex
    exact ⟨k, fun j line' hj hbuf' => h.data_inj j k line' line buf hj hk hbuf' hbuf⟩
  · exact ⟨0, fun j line hj hbuf => absurd ⟨j, line, hj, hbuf⟩ hex⟩

section

variable {entries size k : Nat} {dsc : δ}
  (hk : (dtDevPixelpipeCacheInit entries size dsc).lines[k]? = some line)
include hk

theorem line_init :
    k < entries ∧ line = ⟨if size = 0 then none else some k, size, dsc, noHash, noHash, 0⟩ := by
  obtain ⟨j, hj, rfl⟩ := map_eq_some_iff.mp (List.getElem?_map.symm.trans hk)
  obtain ⟨hlt, rfl⟩ := List.getElem?_eq_some_iff.mp hj
  rw [length_range] at hlt
  rw [getElem_range]
  exact ⟨hlt, rfl⟩

theorem data_init {buf : PixelBuffer} (hbuf : line.data = some buf) : k = buf ∧ k < entries := by
  obtain ⟨hlt, rfl⟩ := line_init hk
  split at hbuf
  · cases hbuf
  · exact ⟨some.inj hbuf, hlt⟩

end

theorem wellFormed_init (entries size : Nat) (dsc : δ) :
    (dtDevPixelpipeCacheInit entries size dsc).WellFormed sizes where
  data_inj k k' line line' buf hk hk' hbuf hbuf' :=
    (data_init hk hbuf).1.trans (data_init hk' hbuf').1.symm
  hash_inj k k' line line' hk _ _ hne := by
    rw [(line_init hk).2] at hne
    exact absurd rfl hne
  old k line buf hk hbuf := by
    obtain ⟨rfl, hlt⟩ := data_init hk hbuf
    exact hlt
  allocated k line hk hpos := by
    obtain ⟨-, rfl⟩ := line_init hk
    simp [Nat.ne_of_gt hpos]
  fits k line hk hne := by
    rw [(line_init hk).2] at hne
    exact absurd rfl hne

end PixelpipeCache

/-! ## Whole runs -/

/-- Except for those of a few lines, the ages are not negative, and all but that of the line `last`
are positive. -/
def Ages {δ : Type} (lines : List (CacheLine δ)) (few : List Nat) (last : Option Nat) : Prop :=
  ∀ (k : Nat) line, lines[k]? = some line → k ∉ few →
    0 ≤ line.used ∧ ∀ q ∈ last, k ≠ q → 1 ≤ line.used

namespace CacheRun

variable {δ : Type} {sizes : UInt64 → Nat} {s : CacheRun δ}

/-- The line of the last get, if there was one since the last flush. -/
def Last (s : CacheRun δ) : Option Nat → Prop
  | some q => s.flushed = false ∧ ∃ line, s.cache.lines[q]? = some line ∧
      s.gets.head? = some (line.hash, line.data) ∧ line.used ≤ 0
  | none => s.flushed = true ∧ ∀ line ∈ s.cache.lines, line.hash = noHash ∧ line.used ≤ 0

structure Sound (sizes : UInt64 → Nat) (s : CacheRun δ) : Prop where
  wellFormed : s.cache.WellFormed sizes
  lines : 4 ≤ s.cache.lines.length
  importants : s.importants ≤ 1
  reweights : s.reweights ≤ 1
  known : ∀ get ∈ s.gets, ∀ buf, get.2 = some buf → buf < s.cache.next
  ages : ∃ few last, few.length ≤ s.importants + s.reweights ∧ Ages s.cache.lines few last ∧
    s.Last last
  keeps : s.KeepsInput

theorem exists_line (hlines : 4 ≤ s.cache.lines.length) {few : List Nat} (hfew : few.length ≤ 3) :
    ∃ (k : Nat) (line : CacheLine δ), s.cache.lines[k]? = some line ∧ k ∉ few := by
  obtain ⟨k, hk, hnot⟩ := exists_lt_not_mem Function.injective_id
    (show few.length < s.cache.lines.length by omega)
  exact ⟨k, _, getElem?_eq_getElem hk, hnot⟩

theorem max_ne_last {hash : UInt64} {weight : Int} {dsc : δ} (hlines : 4 ≤ s.cache.lines.length)
    {few : List Nat} {q : Nat} (hfew : few.length ≤ 2) (hages : Ages s.cache.lines few (some q))
    {line : CacheLine δ} (hq : s.cache.lines[q]? = some line) (hused : line.used ≤ 0) :
    (searchLines hash weight 0 ⟨-1, 0, none, 0, dsc⟩ s.cache.lines).1.max ≠ q := by
  obtain ⟨k, old, hk, hnot⟩ := @exists_line δ s hlines (q :: few) (by simp; omega)
  rw [mem_cons, not_or] at hnot
  have hold := (hages k old hk hnot.2).2 q rfl hnot.1
  rcases @searchLines_max δ hash weight s.cache.lines 0 ⟨-1, 0, none, 0, dsc⟩ with
    ⟨hle, -⟩ | ⟨j, oldest, hj, hmax, -, hle⟩
  · have := hle old (mem_of_getElem? hk)
    dsimp only at this
    omega
  · have := hle old (mem_of_getElem? hk)
    rintro rfl
    rw [hmax, Nat.zero_add, hj] at hq
    cases hq
    omega

section Get

variable {hash : UInt64} {weight : Int} {c' : PixelpipeCache δ} {v : Nat}
  {before after : CacheLine δ} {important : Bool} {basichash : UInt64} {size : Nat} {dsc : δ}

theorem Sound.few (h : s.Sound sizes) {few : List Nat}
    (hfew : few.length ≤ s.importants + s.reweights) : few.length ≤ 2 := by
  have := h.importants
  have := h.reweights
  omega

theorem Sound.after_ne (h : s.Sound sizes)
    (hcareful : s.Careful (.get important basichash hash size dsc))
    (hget : GetAt sizes hash weight s.cache c' v before after)
    (hv : before.hash = hash ∨
      v = (searchLines hash weight 0 ⟨-1, 0, none, 0, dsc⟩ s.cache.lines).1.max)
    {last : UInt64} {data : PixelBuffer} (hlast : s.gets.head? = some (last, some data))
    (hne : hash ≠ last) : after.data ≠ some data := by
  obtain ⟨few, q, hfew, hages, hq⟩ := h.ages
  cases q with
  | some q =>
    obtain ⟨-, line, hline, hhead, hused⟩ := hq
    obtain ⟨hsame, hdata⟩ := Prod.mk.inj (some.inj (hlast.symm.trans hhead))
    refine hget.data_ne h.wellFormed (k := q) ?_ hline hdata.symm
    rcases hv with hv | rfl
    · rintro rfl
      have hbefore : before = line := some.inj (hget.was.symm.trans hline)
      rw [← hv, hbefore] at hne
      exact hne hsame.symm
    · exact (max_ne_last h.lines (h.few hfew) hages hline hused).symm
  | none =>
    obtain ⟨hflushed, hempty⟩ := hq
    -- there is a line that is not reweighted, and the first such line is taken
    obtain ⟨k, line, hk, hnot⟩ := exists_line h.lines (Nat.le_succ_of_le (h.few hfew))
    obtain ⟨found, hfound⟩ : ∃ found, s.cache.lines.find? (0 ≤ ·.used) = some found := by
      apply isSome_iff_exists.mp
      rw [find?_isSome]
      exact ⟨line, mem_of_getElem? hk, by simpa using (hages k line hk hnot).1⟩
    obtain ⟨j, hj, hmax⟩ := @searchLines_max_of_find δ hash weight s.cache.lines
      (fun l hl => (hempty l hl).2) found hfound 0 ⟨-1, 0, none, 0, dsc⟩ rfl
    have hbefore : before = found := by
      rcases hv with hv | rfl
      · exact absurd (hv.symm.trans (hempty before (mem_of_getElem? hget.was)).1) hcareful.1
      · rw [hmax, Nat.zero_add] at hget
        exact some.inj (hget.was.symm.trans hj)
    rcases hget.buffer with ⟨hsame, -⟩ | ⟨hnew, -⟩
    · rw [hsame, hbefore]
      exact (hcareful.2.2.2 hflushed _ hlast found hfound).symm
    · intro hdata
      rw [hnew] at hdata
      have := h.known _ (mem_of_mem_head? hlast) data rfl
      exact absurd (some.inj hdata) (Nat.ne_of_gt this)

theorem ages_of_getAt {few : List Nat} {last : Option Nat} (h : Ages s.cache.lines few last)
    (hold : ∀ line ∈ s.cache.lines, line.used < 2147483647)
    (hget : GetAt sizes hash weight s.cache c' v before after) {few' : List Nat}
    (hsub : few ⊆ few') (hv : v ∉ few' → 0 ≤ weight) : Ages c'.lines few' (some v) := by
  intro k line hk hnot
  rcases hget.cases hk with ⟨rfl, rfl⟩ | ⟨hne, old, hline, rfl, hother⟩
  · rw [hget.used_eq]
    refine ⟨hv hnot, ?_⟩
    intro q hq hne
    exact absurd (some.inj hq) hne
  · have hlt := hold old (mem_of_getElem? hline)
    have hle := (h k old hline fun hmem => hnot (hsub hmem)).1
    have hage : (old.aged hash weight).used = old.used + 1 := by
      dsimp only [CacheLine.aged]
      rw [if_neg hother, int32]
      omega
    exact ⟨by omega, fun _ _ _ => by omega⟩

theorem Sound.of_getAt (h : s.Sound sizes)
    (hcareful : s.Careful (.get important basichash hash (sizes hash) dsc))
    (hget : GetAt sizes hash weight s.cache c' v before after)
    (hv : before.hash = hash ∨
      v = (searchLines hash weight 0 ⟨-1, 0, none, 0, dsc⟩ s.cache.lines).1.max)
    {importants : Nat} (hweight : weight = 0 ∧ importants = s.importants ∨
      weight ≤ 0 ∧ importants = s.importants + 1 ∧ s.importants = 0) :
    Sound sizes { s with
      cache := c', gets := (hash, after.data) :: s.gets, importants := importants,
      flushed := false } := by
  have hsize := hcareful.2.1
  have hold := hcareful.2.2.1
  have hwell := h.wellFormed.of_getAt hsize hget
  constructor
  case wellFormed => exact hwell
  case lines => exact hget.length ▸ h.lines
  case importants =>
    have := h.importants
    dsimp only
    omega
  case reweights => exact h.reweights
  case known =>
    intro get hmem buf hbuf
    rcases mem_cons.mp hmem with rfl | hmem
    · exact hwell.old v after buf hget.self hbuf
    · exact Nat.lt_of_lt_of_le (h.known get hmem buf hbuf) hget.next_le
  case ages =>
    obtain ⟨few, last, hfew, hages, -⟩ := h.ages
    have hlast : after.used ≤ 0 := by
      rw [hget.used_eq]
      omega
    rcases hweight with ⟨hzero, himp⟩ | ⟨-, himp, -⟩
    · exact ⟨few, some v, himp ▸ hfew,
        ages_of_getAt hages hold hget (Subset.refl _) fun _ => hzero.ge,
        rfl, after, hget.self, by rw [hget.hash_eq]; rfl, hlast⟩
    · refine ⟨v :: few, some v, ?_, ?_, rfl, after, hget.self, by rw [hget.hash_eq]; rfl, hlast⟩
      · dsimp only
        rw [length_cons]
        omega
      · exact ages_of_getAt hages hold hget (subset_cons_self _ _)
          (absurd mem_cons_self)
  case keeps =>
    intro last data hash' data' earlier hgets hne
    obtain ⟨hhead, htail⟩ := cons.inj hgets
    obtain ⟨rfl, hdata⟩ := Prod.mk.inj hhead
    have hlast : s.gets.head? = some (last, some data) := by rw [htail]; rfl
    have := h.after_ne hcareful hget hv hlast hne
    rw [hdata] at this
    exact fun heq => this (congrArg some heq)

end Get

theorem Sound.reweight (h : s.Sound sizes) (hone : s.reweights = 0) {data : Option PixelBuffer}
    (hdata : data ≠ none) : (cacheCall s (.reweight data)).Sound sizes := by
  obtain ⟨buf, rfl⟩ := ne_none_iff_exists'.mp hdata
  obtain ⟨few, last, hfew, hages, hlast⟩ := h.ages
  let f : CacheLine δ → CacheLine δ := fun line =>
    if line.data = some buf then { line with used := -s.cache.lines.length } else line
  have hf : ∀ line, (f line).data = line.data ∧ (f line).size = line.size ∧
      (f line).hash = line.hash ∧ (line.used ≤ 0 → (f line).used ≤ 0) := by
    intro line
    by_cases heq : line.data = some buf
    · simp only [f, if_pos heq, true_and]
      omega
    · simp only [f, if_neg heq, true_and, imp_self]
  constructor
  case wellFormed =>
    exact h.wellFormed.of_map (fun line => (hf line).1) (fun line => (hf line).2.1)
      fun line => .inl (hf line).2.2.1
  case lines => exact h.lines.trans_eq (length_map f).symm
  case importants => exact h.importants
  case reweights => exact (congrArg (· + 1) hone).le
  case known => exact h.known
  case keeps => exact h.keeps
  case ages =>
    obtain ⟨k, hk⟩ := h.wellFormed.exists_with_buffer buf
    refine ⟨k :: few, last, ?_, ?_, ?_⟩
    · show few.length + 1 ≤ s.importants + (s.reweights + 1)
      omega
    · intro j line' hj hnot
      rw [mem_cons, not_or] at hnot
      obtain ⟨line, hline, rfl⟩ := map_eq_some_iff.mp (getElem?_map.symm.trans hj)
      rw [if_neg fun hbuf => hnot.1 (hk j line hline hbuf)]
      exact hages j line hline hnot.2
    · cases last with
      | none =>
        refine ⟨hlast.1, ?_⟩
        intro line' hline'
        obtain ⟨line, hline, rfl⟩ := mem_map.mp hline'
        obtain ⟨hhash, hused⟩ := hlast.2 line hline
        exact ⟨(hf line).2.2.1.trans hhash, (hf line).2.2.2 hused⟩
      | some q =>
        obtain ⟨hflushed, line, hline, hhead, hused⟩ := hlast
        refine ⟨hflushed, f line, ?_, ?_, (hf line).2.2.2 hused⟩
        · exact getElem?_map.trans (congrArg (Option.map f) hline)
        · rw [(hf line).1, (hf line).2.2.1]
          exact hhead

theorem Sound.flush (h : s.Sound sizes) : (cacheCall s .flush).Sound sizes where
  wellFormed := h.wellFormed.of_map (fun _ => rfl) (fun _ => rfl) fun _ => .inr rfl
  lines := h.lines.trans_eq (length_map _).symm
  importants := Nat.zero_le _
  reweights := Nat.zero_le _
  known := h.known
  keeps := h.keeps
  ages := by
    refine ⟨[], none, Nat.le_refl _, ?_, rfl, ?_⟩
    · intro k line' hk _
      obtain ⟨line, -, rfl⟩ := map_eq_some_iff.mp (getElem?_map.symm.trans hk)
      exact ⟨Int.le_refl 0, fun q hq => absurd hq (not_mem_none q)⟩
    · intro line' hline'
      obtain ⟨line, -, rfl⟩ := mem_map.mp hline'
      exact ⟨rfl, Int.le_refl 0⟩

theorem Sound.step (h : s.Sound sizes) {call : CacheCall δ} (hregular : s.Regular sizes call)
    (hcareful : s.Careful call) : (cacheCall s call).Sound sizes := by
  cases call with
  | reweight data => exact h.reweight hregular hcareful
  | flush => exact h.flush
  | get important basichash hash size dsc =>
    obtain ⟨rfl, himp⟩ := hregular
    have hlines : s.cache.lines ≠ [] := by
      intro hnil
      have := h.lines
      rw [hnil] at this
      cases this
    cases important with
    | true =>
      obtain ⟨v, before, after, hget, hdata, hv⟩ :=
        h.wellFormed.getAt hlines hcareful.1 hcareful.2.1 basichash dsc (-s.cache.lines.length)
      have hsound := h.of_getAt hcareful hget hv (.inr ⟨by omega, rfl, himp rfl⟩)
      rw [← hdata] at hsound
      exact hsound
    | false =>
      obtain ⟨v, before, after, hget, hdata, hv⟩ :=
        h.wellFormed.getAt hlines hcareful.1 hcareful.2.1 basichash dsc 0
      have hsound := h.of_getAt hcareful hget hv (.inl ⟨rfl, rfl⟩)
      rw [← hdata] at hsound
      exact hsound

theorem sound_init {entries : Nat} (hentries : 4 ≤ entries) (size : Nat) (dsc : δ) :
    (init entries size dsc).Sound sizes := by
  constructor
  case wellFormed => exact wellFormed_init entries size dsc
  case lines => simpa [init, dtDevPixelpipeCacheInit] using hentries
  case importants => exact Nat.zero_le _
  case reweights => exact Nat.zero_le _
  case known =>
    intro get hget
    cases hget
  case keeps =>
    intro _ _ _ _ _ hgets
    cases hgets
  case ages =>
    refine ⟨[], none, Nat.le_refl _, ?_, rfl, ?_⟩
    · intro k line hk _
      rw [(line_init hk).2]
      exact ⟨Int.le_refl 0, fun q hq => absurd hq (not_mem_none q)⟩
    · intro line hmem
      obtain ⟨k, hk⟩ := mem_iff_getElem?.mp hmem
      rw [(line_init hk).2]
      exact ⟨rfl, Int.le_refl 0⟩

end CacheRun

/-- A module's input stays while the buffer for its output is got. -/
theorem cacheCall_keepsInput {δ : Type} {sizes : UInt64 → Nat} {entries : Nat} (size : Nat)
    (dsc : δ) (calls : List (CacheCall δ)) (hentries : 4 ≤ entries)
    (hregular : AllSteps cacheCall (CacheRun.Regular sizes) (.init entries size dsc) calls)
    (hcareful : AllSteps cacheCall CacheRun.Careful (.init entries size dsc) calls) :
    AllStates cacheCall CacheRun.KeepsInput (.init entries size dsc) calls := by
  have hsound : AllStates cacheCall (Sound sizes) (.init entries size dsc) calls :=
    allStates_of_allSteps (fun _ _ h hcall => h.step hcall.1 hcall.2)
      (sound_init hentries size dsc) (hregular.and hcareful)
  exact hsound.mono fun _ h => h.keeps

theorem cacheCall_keepsInput_focused :
    AllStates cacheCall CacheRun.KeepsInput (.init 5 0 ())
      [.get false 1 10 64 (), .get true 1 11 64 (), .reweight (some 6), .get false 1 12 64 (),
        .flush, .get false 2 20 64 ()] :=
  @cacheCall_keepsInput Unit (fun _ => 64) 5 0 () _ (by decide) (by decide +kernel)
    (by decide +kernel)

/-- A flush forgets which buffer was returned last, and the next get takes it again. -/
theorem flush_not_keepsInput :
    let calls : List (CacheCall Unit) := [.get false 0 1 8 (), .flush, .get false 0 2 8 ()]
    AllSteps cacheCall (Regular fun _ => 8) (.init 4 8 ()) calls ∧
      (calls.foldl cacheCall (.init 4 8 ())).gets = [(2, some 0), (1, some 0)] ∧
      ¬ AllStates cacheCall KeepsInput (.init 4 8 ()) calls := by
  have hgets : ([.get false 0 1 8 (), .flush, .get false 0 2 8 ()].foldl cacheCall
      (.init 4 8 ())).gets = [(2, some 0), (1, some 0)] := by decide +kernel
  refine ⟨by decide +kernel, hgets, ?_⟩
  intro hkeeps
  exact hkeeps.last 1 0 2 0 _ hgets (by decide) rfl

end DTLite
