import DTLite.Control.Conf
import DTLite.Reasoning.Radix
import DTLite.Reasoning.Text

/-!
# The metadata that is exported

A preset is a text: flags in hexadecimal, then the names of tags and their formulas, with the byte 1
between them.  It is kept in the configuration with one setting for each tag, and taken apart again
when a job exports images.
-/

namespace DTLite

open Reasoning List ConfTable

def flagsKeyword : Text := "plugins/lighttable/export/metadata_flags".toList

def formulaKeyword : Text := "plugins/lighttable/export/metadata_formula".toList

-- `dt_util_dstrcat(NULL, "%s%d", formula_keyword, i)`
def formulaKey (i : Nat) : Text := formulaKeyword ++ Nat.toDigits 10 i

-- EXIF, metadata, geotags, tags and the history.
def dtLibExportMetadataDefaultFlags : UInt32 := 1 ||| 2 ||| 4 ||| 8 ||| 32

-- `dt_util_str_to_glist("\1", text)`
def metadataFields (text : Text) : List Text := if text = [] then [] else text.splitOn '\x01'

-- `%x`
def printHex (flags : UInt32) : Text := Nat.toDigits 16 flags.toNat

def setFormulas (c : ConfTable) (i : Nat) : List Text → ConfTable × Nat
  | tagname :: formula :: tags =>
      setFormulas (dtConfSetString c (formulaKey i) (tagname ++ ';' :: formula)) (i + 1) tags
  | _ => (c, i)

-- "clean up deprecated formulas", `none` if there are more than `bound` of them.
def clearFormulas : Nat → ConfTable → Nat → Option ConfTable
  | 0, _, _ => none
  | bound + 1, c, i =>
      if dtConfKeyExists c (formulaKey i) then
        clearFormulas bound (dtConfSetString c (formulaKey i) []) (i + 1)
      else some c

def dtLibExportMetadataSetConf (c : ConfTable) (metadataPresets : Text) : Option ConfTable :=
  let set := match metadataFields metadataPresets with
    | flagsHexa :: list => setFormulas (dtConfSetString c flagsKeyword flagsHexa) 0 list
    | [] => (dtConfSetString c flagsKeyword [], 0)
  clearFormulas (set.1.names.length + 1) set.1 set.2

def formulaEntry (nameformula : Text) : Text :=
  match nameformula.dropWhile (· ≠ ';') with
  | _ :: formula => '\x01' :: nameformula.takeWhile (· ≠ ';') ++ '\x01' :: formula
  | [] => []

def readFormulas : Nat → ConfTable → Nat → Option Text
  | 0, _, _ => none
  | bound + 1, c, i =>
      if dtConfKeyExists c (formulaKey i) then
        let nameformula := dtConfGetString c (formulaKey i)
        (readFormulas bound nameformula.1 (i + 1)).map (formulaEntry nameformula.2 ++ ·)
      else some []

def dtLibExportMetadataGetConf (c : ConfTable) : Option Text :=
  if dtConfKeyExists c flagsKeyword then
    let flags := dtConfGetString c flagsKeyword
    (readFormulas (c.names.length + 1) flags.1 0).map (flags.2 ++ ·)
  else some (printHex dtLibExportMetadataDefaultFlags)

/-- `dt_export_metadata_t`. -/
structure ExportMetadata where
  flags : Int32
  list : List Text
deriving DecidableEq

/-- What `dt_control_export_job_run` makes of its `metadata_export`. -/
def parseMetadataExport (metadataExport : Text) : ExportMetadata :=
  match metadataFields metadataExport with
  | flags :: list => ⟨Int32.ofInt (strtolIn 15 flags), list⟩
  | [] => ⟨0, []⟩

/-! ## The settings -/

/-- The preset with some flags, names and formulas. -/
def presetText (flags : UInt32) (pairs : List (Text × Text)) : Text :=
  printHex flags ++ pairs.flatMap fun p => '\x01' :: p.1 ++ '\x01' :: p.2

def flatten (pairs : List (Text × Text)) : List Text := pairs.flatMap fun p => [p.1, p.2]

/-- The texts of a preset keep the separators apart from the names and formulas. -/
def PlainPair (p : Text × Text) : Prop := '\x01' ∉ p.1 ∧ '\x01' ∉ p.2 ∧ ';' ∉ p.1

instance (p : Text × Text) : Decidable (PlainPair p) := inferInstanceAs (Decidable (_ ∧ _ ∧ _))

/-- No setting of the preset is given on the command line. -/
def ConfTable.FreePreset (c : ConfTable) : Prop :=
  valueOf? flagsKeyword c.overrideEntries = none ∧
    ∀ i, valueOf? (formulaKey i) c.overrideEntries = none

theorem formulaKey_injective : Function.Injective formulaKey := by
  intro i j h
  have hdigits := congrArg (Nat.ofDigitChars 10 · 0) (append_cancel_left h)
  simpa only [Nat.ofDigitChars_toDigits (b := 10) (by decide) (by decide)] using hdigits

theorem flagsKeyword_ne_formulaKey (i : Nat) : flagsKeyword ≠ formulaKey i := by
  intro h
  have hstart : flagsKeyword.take 40 = (formulaKey i).take 40 := congrArg (take 40) h
  rw [formulaKey, take_append_of_le_length (by decide +kernel)] at hstart
  exact absurd hstart (by decide +kernel)

theorem formulaEntry_pair {p : Text × Text} (hname : ';' ∉ p.1) :
    formulaEntry (p.1 ++ ';' :: p.2) = '\x01' :: p.1 ++ '\x01' :: p.2 := by
  have hall : ∀ c ∈ p.1, decide (c ≠ ';') = true := by
    intro c hc
    simp only [decide_eq_true_eq]
    rintro rfl
    exact hname hc
  rw [formulaEntry, dropWhile_append_of_pos hall, takeWhile_append_of_pos hall]
  simp

section Loops

variable {c c' : ConfTable}

theorem ConfTable.FreePreset.setString (h : c.FreePreset) (name val : Text) :
    (dtConfSetString c name val).FreePreset := by
  rw [FreePreset, overrideEntries_setString]
  exact h

/-- The names and formulas are stored under the numbers from `i` on, and nothing else changes. -/
theorem setFormulas_spec (h : c.FreePreset) (i : Nat) (pairs : List (Text × Text)) :
    let set := setFormulas c i (flatten pairs)
    set.2 = i + pairs.length ∧ set.1.FreePreset ∧
      (∀ k (hk : k < pairs.length), set.1.valueAt (formulaKey (i + k)) =
        some ((pairs[k]).1 ++ ';' :: (pairs[k]).2)) ∧
      ∀ name, (∀ k < pairs.length, name ≠ formulaKey (i + k)) →
        set.1.valueAt name = c.valueAt name := by
  induction pairs generalizing c i with
  | nil => exact ⟨rfl, h, fun k hk => absurd hk (Nat.not_lt_zero k), fun _ _ => rfl⟩
  | cons p pairs ih =>
    obtain ⟨hnext, hfree, hstored, hother⟩ :=
      ih (h.setString (formulaKey i) (p.1 ++ ';' :: p.2)) (i + 1)
    refine ⟨?_, hfree, ?_, ?_⟩
    · rw [length_cons]
      exact hnext.trans (by omega)
    · intro k hk
      cases k with
      | zero =>
        have hkeep := hother (formulaKey i) fun k _ heq => by
          have := formulaKey_injective heq
          omega
        exact hkeep.trans (valueAt_setString (h.2 i))
      | succ k =>
        have := hstored k (Nat.lt_of_succ_lt_succ hk)
        rw [show i + 1 + k = i + (k + 1) by omega] at this
        exact this
    · intro name hname
      have hkeep := hother name fun k hk => by
        have := hname (k + 1) (Nat.succ_lt_succ hk)
        rwa [show i + (k + 1) = i + 1 + k by omega] at this
      exact hkeep.trans (valueAt_setString_of_ne (hname 0 (Nat.succ_pos _)))

/-- The settings from `i` on are emptied up to the first number that has none. -/
theorem clearFormulas_spec (h : c.FreePreset) {i k bound : Nat} (hbound : k < bound)
    (hgap : c.valueAt (formulaKey (i + k)) = none)
    (hthere : ∀ j < k, (c.valueAt (formulaKey (i + j))).isSome) :
    ∃ c', clearFormulas bound c i = some c' ∧
      (∀ j < k, c'.valueAt (formulaKey (i + j)) = some []) ∧
      ∀ name, (∀ j < k, name ≠ formulaKey (i + j)) → c'.valueAt name = c.valueAt name := by
  induction k generalizing c i bound with
  | zero =>
    obtain ⟨bound, rfl⟩ := Nat.exists_eq_succ_of_ne_zero (Nat.ne_of_gt hbound)
    refine ⟨c, ?_, fun j hj => absurd hj (Nat.not_lt_zero j), fun _ _ => rfl⟩
    have hnone : dtConfKeyExists c (formulaKey i) = false := by
      rw [dtConfKeyExists, show c.valueAt (formulaKey i) = none from hgap]
      rfl
    rw [clearFormulas, hnone]
    rfl
  | succ k ih =>
    obtain ⟨bound, rfl⟩ := Nat.exists_eq_succ_of_ne_zero (Nat.ne_of_gt (by omega : 0 < bound))
    have hne : ∀ j, formulaKey (i + 1 + j) ≠ formulaKey i := fun j heq => by
      have := formulaKey_injective heq
      omega
    have hgap' : (dtConfSetString c (formulaKey i) []).valueAt (formulaKey (i + 1 + k)) = none := by
      rw [valueAt_setString_of_ne (hne k), show i + 1 + k = i + (k + 1) by omega]
      exact hgap
    have hthere' : ∀ j < k, ((dtConfSetString c (formulaKey i) []).valueAt
        (formulaKey (i + 1 + j))).isSome := by
      intro j hj
      rw [valueAt_setString_of_ne (hne j), show i + 1 + j = i + (j + 1) by omega]
      exact hthere (j + 1) (by omega)
    obtain ⟨c', hclear, hempty, hother⟩ :=
      ih (h.setString (formulaKey i) []) (by omega : k < bound) hgap' hthere'
    refine ⟨c', ?_, ?_, ?_⟩
    · have hsome : dtConfKeyExists c (formulaKey i) = true := hthere 0 (by omega)
      rw [clearFormulas, if_pos hsome]
      exact hclear
    · intro j hj
      cases j with
      | zero =>
        exact (hother (formulaKey i) fun j _ => (hne j).symm).trans
          (valueAt_setString (h.2 i))
      | succ j =>
        rw [show i + (j + 1) = i + 1 + j by omega]
        exact hempty j (by omega)
    · intro name hname
      refine (hother name fun j hj => ?_).trans
        (valueAt_setString_of_ne (hname 0 (by omega)))
      rw [show i + 1 + j = i + (j + 1) by omega]
      exact hname (j + 1) (by omega)

/-- The loop reads the settings from `i` on, up to the first number that has none. -/
theorem readFormulas_spec {vs : List Text} {i bound : Nat} (hbound : vs.length < bound)
    (hvs : ∀ k ≤ vs.length, c.valueAt (formulaKey (i + k)) = vs[k]?) :
    readFormulas bound c i = some (vs.flatMap formulaEntry) := by
  induction vs generalizing i bound with
  | nil =>
    obtain ⟨bound, rfl⟩ := Nat.exists_eq_succ_of_ne_zero (Nat.ne_of_gt hbound)
    have hnone : dtConfKeyExists c (formulaKey i) = false := by
      rw [dtConfKeyExists, show c.valueAt (formulaKey i) = none from hvs 0 (Nat.le_refl 0)]
      rfl
    rw [readFormulas, hnone]
    rfl
  | cons v vs ih =>
    obtain ⟨bound, rfl⟩ := Nat.exists_eq_succ_of_ne_zero (Nat.ne_of_gt (by omega : 0 < bound))
    have hv : c.valueAt (formulaKey i) = some v := hvs 0 (Nat.zero_le _)
    have hsome : dtConfKeyExists c (formulaKey i) = true := by
      rw [dtConfKeyExists, hv]
      rfl
    have hrest : readFormulas bound c (i + 1) = some (vs.flatMap formulaEntry) := by
      apply ih (Nat.lt_of_succ_lt_succ hbound)
      intro k hk
      rw [show i + 1 + k = i + (k + 1) by omega]
      exact hvs (k + 1) (Nat.succ_le_succ hk)
    rw [readFormulas, if_pos hsome, getString_of_valueAt hv]
    simp only [hrest, Option.map_some, flatMap_cons]

end Loops

variable {c : ConfTable} (flags : UInt32) {pairs : List (Text × Text)}

theorem presetText_eq_intercalate (pairs : List (Text × Text)) :
    presetText flags pairs = ['\x01'].intercalate (printHex flags :: flatten pairs) := by
  rw [presetText]
  generalize printHex flags = first
  induction pairs generalizing first with
  | nil => simp [flatten]
  | cons p pairs ih =>
    rw [show flatten (p :: pairs) = p.1 :: p.2 :: flatten pairs from rfl,
      intercalate_cons_cons, intercalate_cons_cons, ← ih p.2]
    simp

theorem not_mem_printHex : '\x01' ∉ printHex flags := by
  intro h
  obtain ⟨d, hd, heq⟩ := exists_digit_of_mem_toDigits (by decide) h
  have hdigits : ∀ d < 16, Nat.digitChar d ≠ '\x01' := by decide
  exact hdigits d hd heq.symm

theorem metadataFields_presetText (hplain : ∀ p ∈ pairs, PlainPair p) :
    metadataFields (presetText flags pairs) = printHex flags :: flatten pairs := by
  have hne : presetText flags pairs ≠ [] := by
    intro h
    exact Nat.toDigits_ne_nil (append_eq_nil_iff.mp h).1
  rw [metadataFields, if_neg hne, presetText_eq_intercalate, splitOn_intercalate]
  · intro field hfield
    rcases mem_cons.mp hfield with rfl | hfield
    · exact not_mem_printHex flags
    · obtain ⟨p, hp, hmem⟩ := mem_flatMap.mp hfield
      rcases mem_cons.mp hmem with rfl | hmem
      · exact (hplain p hp).1
      · rw [mem_singleton.mp hmem]
        exact (hplain p hp).2.1
  · exact cons_ne_nil _ _

/-! ## The round trip -/

/-- What the settings are after a preset was stored: the new ones, and some empty ones. -/
theorem setConf_stores (hfree : c.FreePreset) (flags : UInt32) (hplain : ∀ p ∈ pairs, PlainPair p) :
    ∃ c' vs k, dtLibExportMetadataSetConf c (presetText flags pairs) = some c' ∧
      c'.valueAt flagsKeyword = some (printHex flags) ∧
      vs = (pairs.map fun p => p.1 ++ ';' :: p.2) ++ replicate k [] ∧
      ∀ j ≤ vs.length, c'.valueAt (formulaKey j) = vs[j]? := by
  obtain ⟨hnext, hfree₁, hstored, hother⟩ :=
    setFormulas_spec (hfree.setString flagsKeyword (printHex flags)) 0 pairs
  set c₁ := (setFormulas (dtConfSetString c flagsKeyword (printHex flags)) 0 (flatten pairs)).1
  obtain ⟨k, hk, hgap, hthere⟩ := exists_first_gap formulaKey_injective c₁.names pairs.length
  have hgap : c₁.valueAt (formulaKey (pairs.length + k)) = none := by
    rw [mem_names, dtConfKeyExists] at hgap
    simpa using hgap
  have hthere : ∀ j < k, (c₁.valueAt (formulaKey (pairs.length + j))).isSome := fun j hj =>
    mem_names.mp (hthere j hj)
  obtain ⟨c', hclear, hempty, hkeep⟩ := clearFormulas_spec hfree₁ (Nat.lt_succ_of_le hk) hgap hthere
  refine ⟨c', _, k, ?_, ?_, rfl, ?_⟩
  · rw [dtLibExportMetadataSetConf, metadataFields_presetText flags hplain, ← hclear]
    rw [hnext, Nat.zero_add]
  · rw [hkeep _ fun j _ => flagsKeyword_ne_formulaKey _, hother _ fun j _ =>
      flagsKeyword_ne_formulaKey _]
    exact valueAt_setString hfree.1
  · intro j hj
    rw [length_append, length_map, length_replicate] at hj
    by_cases hpair : j < pairs.length
    · have hj := hstored j hpair
      rw [Nat.zero_add] at hj
      rw [hkeep _ fun l _ heq => by have := formulaKey_injective heq; omega, hj,
        getElem?_append_left (by simpa using hpair)]
      simp [hpair]
    · obtain ⟨l, rfl⟩ := Nat.exists_eq_add_of_le (Nat.le_of_not_lt hpair)
      by_cases hl : l < k
      · rw [hempty l hl]
        simp [hl]
      · have hlk : l = k := by omega
        rw [hlk, hkeep _ fun j hj heq => by have := formulaKey_injective heq; omega, hgap]
        simp

theorem getConf_of_values {flags : Text} {vs : List Text}
    (hflags : c.valueAt flagsKeyword = some flags)
    (hvs : ∀ j ≤ vs.length, c.valueAt (formulaKey j) = vs[j]?) :
    dtLibExportMetadataGetConf c = some (flags ++ vs.flatMap formulaEntry) := by
  have hsize : vs.length ≤ c.names.length := by
    have hnodup : ((range vs.length).map formulaKey).Nodup := nodup_range.map formulaKey_injective
    have hsubset : (range vs.length).map formulaKey ⊆ c.names := by
      intro name hname
      obtain ⟨j, hj, rfl⟩ := mem_map.mp hname
      have hj := mem_range.mp hj
      rw [mem_names, dtConfKeyExists, hvs j hj.le, getElem?_eq_getElem hj]
      rfl
    simpa using (hnodup.subperm hsubset).length_le
  have hread : readFormulas (c.names.length + 1) c 0 = some (vs.flatMap formulaEntry) := by
    apply readFormulas_spec (Nat.lt_succ_of_le hsize)
    intro j hj
    rw [Nat.zero_add]
    exact hvs j hj
  have hthere : dtConfKeyExists c flagsKeyword = true := by
    rw [dtConfKeyExists, hflags]
    rfl
  rw [dtLibExportMetadataGetConf, if_pos hthere, getString_of_valueAt hflags]
  simp only [hread, Option.map_some]

/-- A preset that was stored is loaded as it was, whatever was stored before. -/
theorem getConf_setConf (hfree : c.FreePreset) (flags : UInt32)
    (hplain : ∀ p ∈ pairs, PlainPair p) :
    (dtLibExportMetadataSetConf c (presetText flags pairs)).bind dtLibExportMetadataGetConf =
      some (presetText flags pairs) := by
  obtain ⟨c', vs, k, hset, hflags, hvs, hvalues⟩ := setConf_stores hfree flags hplain
  have hpairs : (pairs.flatMap fun p => formulaEntry (p.1 ++ ';' :: p.2)) =
      pairs.flatMap fun p => '\x01' :: p.1 ++ '\x01' :: p.2 :=
    flatMap_congr fun p hp => formulaEntry_pair (hplain p hp).2.2
  have hblank : (replicate k ([] : Text)).flatMap formulaEntry = [] := by
    rw [flatMap_eq_nil_iff]
    intro v hv
    rw [eq_of_mem_replicate hv]
    rfl
  rw [hset, Option.bind_some, getConf_of_values hflags hvalues, presetText, hvs,
    flatMap_append, flatMap_map, hpairs, hblank, append_nil]

theorem parse_flags_iff :
    Int32.ofInt (strtolIn 15 (printHex flags)) = flags.toInt32 ↔ flags < 15 := by
  have hlt : flags.toNat < 4294967296 := flags.toNat_lt
  have hle : scanRadix 15 (printHex flags) ≤ flags.toNat :=
    scanRadix_toDigits_le (by decide) (by decide) (by decide) flags.toNat
  have hread : strtolIn 15 (printHex flags) = scanRadix 15 (printHex flags) :=
    strtolIn_toDigits (by decide) (by decide) (by omega) hle
  have hsame : Int32.ofInt (scanRadix 15 (printHex flags)) = flags.toInt32 ↔
      scanRadix 15 (printHex flags) = flags.toNat := by
    constructor
    · intro h
      have := congrArg (fun i : Int32 => i.toUInt32.toNat) h
      rw [show (Int32.ofInt (scanRadix 15 (printHex flags))).toUInt32 =
        UInt32.ofNat (scanRadix 15 (printHex flags)) from rfl] at this
      rw [UInt32.toNat_ofNat', Nat.mod_eq_of_lt (by omega)] at this
      exact this
    · intro h
      rw [h]
      exact congrArg UInt32.toInt32 UInt32.ofNat_toNat
  rw [hread, hsame]
  exact scanRadix_toDigits_eq_iff (by decide) (by decide) (by decide) flags.toNat

/-- Without settings on the command line a preset comes back as it was exactly if its flags are a
single digit in base 15. -/
theorem metadataPreset_roundTrip_iff {c : ConfTable} (hfree : c.FreePreset) (flags : UInt32)
    {pairs : List (Text × Text)} (hplain : ∀ p ∈ pairs, PlainPair p) :
    ((dtLibExportMetadataSetConf c (presetText flags pairs)).bind
        dtLibExportMetadataGetConf).map parseMetadataExport =
      some ⟨flags.toInt32, flatten pairs⟩ ↔ flags < 15 := by
  rw [getConf_setConf hfree flags hplain, Option.map_some, parseMetadataExport,
    metadataFields_presetText flags hplain, Option.some.injEq, ExportMetadata.mk.injEq,
    ← parse_flags_iff]
  exact and_iff_left rfl

def olderPreset : ConfTable where
  overrideEntries := []
  table := [(flagsKeyword, ['f']), (formulaKey 0, ['a', ';']), (formulaKey 1, ['b', ';'])]
  defaults := []

theorem olderPreset_roundTrip :
    ((dtLibExportMetadataSetConf olderPreset (presetText 14 [(['t'], ['x'])])).bind
        dtLibExportMetadataGetConf).map parseMetadataExport =
      some ⟨(14 : UInt32).toInt32, flatten [(['t'], ['x'])]⟩ :=
  (metadataPreset_roundTrip_iff ⟨rfl, fun _ => rfl⟩ 14 (by decide)).mpr (by decide)

/-- The flags for EXIF, metadata, geotags and tags are `f` in hexadecimal, no digit in base 15. -/
theorem olderPreset_loses_flags :
    ((dtLibExportMetadataSetConf olderPreset (presetText 15 [])).bind
        dtLibExportMetadataGetConf).map parseMetadataExport = some ⟨0, []⟩ := by
  decide +kernel

end DTLite
