import DTLite.Reasoning.SortedSet
import Mathlib.Order.MinMax

/-!
# Groups of versions

What the statements of `common/image.c` do to the rows of one file, as far as the versions go: a row
is a pair of its version and the highest version that it knows of.
-/

namespace DTLite

open Reasoning List

abbrev VersionGroup := List (Int × Int)

namespace VersionGroup

def versions (g : VersionGroup) : List Int := g.map Prod.fst

/-- Different versions, and each entry knows the highest. -/
def Ok (g : VersionGroup) : Prop :=
  g.versions.Nodup ∧ ∀ p ∈ g, ∀ q ∈ g, q.1 ≤ p.2

def InInt32 (x : Int) : Prop := -2147483648 ≤ x ∧ x ≤ 2147483647

def wrapInt32 (x : Int) : Int := x.bmod 4294967296

def InRange (g : VersionGroup) : Prop := ∀ p ∈ g, InInt32 p.1 ∧ InInt32 p.2

theorem inInt32_wrapInt32 (x : Int) : InInt32 (wrapInt32 x) := by
  have hlow := Int.le_bmod (x := x) (m := 4294967296) (by decide)
  have hhigh := Int.bmod_lt (x := x) (m := 4294967296) (by decide)
  unfold InInt32 wrapInt32
  omega

theorem wrapInt32_of_inInt32 {x : Int} (h : InInt32 x) : wrapInt32 x = x := by
  unfold InInt32 at h
  apply Int.bmod_eq_of_le
  · omega
  · omega

-- a new entry, whose number for the highest version all get
def addVersion (w m : Int) (g : VersionGroup) : VersionGroup :=
  g.map (fun p => (p.1, m)) ++ [(w, m)]

theorem versions_addVersion (w m : Int) (g : VersionGroup) :
    (addVersion w m g).versions = g.versions ++ [w] := by
  simp [addVersion, versions]

variable {g : VersionGroup} {p : Int × Int} {vs : List Int} {w : Int} {m : Int}

theorem addVersion_ok_iff :
    (addVersion w m g).Ok ↔ (g.versions ++ [w]).Nodup ∧ ∀ u ∈ g.versions ++ [w], u ≤ m := by
  rw [Ok, versions_addVersion]
  refine and_congr_right fun _ => ?_
  have hmax : ∀ p ∈ addVersion w m g, p.2 = m := by
    intro p hp
    rcases mem_append.mp hp with hp | hp
    · obtain ⟨q, -, rfl⟩ := mem_map.mp hp
      rfl
    · rw [mem_singleton.mp hp]
  constructor
  · intro h u hu
    rw [← versions_addVersion w m] at hu
    obtain ⟨q, hq, rfl⟩ := mem_map.mp hu
    exact h (w, m) (mem_append_right _ (mem_singleton_self _)) q hq
  · intro h p hp q hq
    rw [hmax p hp]
    refine h q.1 ?_
    rw [← versions_addVersion w m]
    exact mem_map_of_mem hq

theorem InRange.addVersion (h : g.InRange) (hw : InInt32 w) (hm : InInt32 m) :
    (addVersion w m g).InRange := by
  intro p hp
  rcases mem_append.mp hp with hp | hp
  · obtain ⟨q, hq, rfl⟩ := mem_map.mp hp
    exact ⟨(h q hq).1, hm⟩
  · rw [mem_singleton.mp hp]
    exact ⟨hw, hm⟩

theorem not_ok_addVersion_overflow (hp : p ∈ g) (hrange : InInt32 p.1) :
    ¬ (addVersion (-2147483648) (-2147483648) g).Ok := by
  rw [addVersion_ok_iff]
  rintro ⟨hnodup, hle⟩
  have hmem : p.1 ∈ g.versions := mem_map_of_mem hp
  have hlow : p.1 = -2147483648 := by
    have := hle p.1 (mem_append_left _ hmem)
    unfold InInt32 at hrange
    omega
  rw [nodup_append] at hnodup
  exact hnodup.2.2 p.1 hmem _ (mem_singleton_self _) hlow

/-! ## Duplicates and copies -/

/-- What a duplicate of an entry that knows of the version `m` does; it is asked for the version
`v`, or for the next one if `v` is -1. -/
def duplicateVersion (m v : Int) (g : VersionGroup) : VersionGroup :=
  if v ∈ g.versions then g
  else if v = -1 then addVersion (wrapInt32 (m + 1)) (wrapInt32 (m + 1)) g
  else addVersion v (max m v) g

theorem Ok.le_of_mem_versions (hg : g.Ok) (hp : p ∈ g) {u : Int} (hu : u ∈ g.versions) :
    u ≤ p.2 := by
  obtain ⟨q, hq, rfl⟩ := mem_map.mp hu
  exact hg.2 p hp q hq

theorem Ok.addVersion (hg : g.Ok) (hw : w ∉ g.versions) (hwm : w ≤ m)
    (hm : ∀ u ∈ g.versions, u ≤ m) : (addVersion w m g).Ok := by
  rw [addVersion_ok_iff]
  constructor
  · rw [nodup_append]
    refine ⟨hg.1, nodup_singleton _, ?_⟩
    rintro u hu v hv rfl
    exact hw (mem_singleton.mp hv ▸ hu)
  · intro u hu
    rcases mem_append.mp hu with hu | hu
    · exact hm u hu
    · rw [mem_singleton.mp hu]
      exact hwm

/-- The next number after the highest one that an entry knows of. -/
theorem addNext_ok_iff (hg : g.Ok) (hp : p ∈ g) (hrange : InInt32 p.1 ∧ InInt32 p.2) :
    (addVersion (wrapInt32 (p.2 + 1)) (wrapInt32 (p.2 + 1)) g).Ok ↔ p.2 < 2147483647 := by
  have hle : ∀ u ∈ g.versions, u ≤ p.2 := fun u => hg.le_of_mem_versions hp
  unfold InInt32 at hrange
  by_cases hlt : p.2 < 2147483647
  · rw [wrapInt32_of_inInt32 (show InInt32 (p.2 + 1) by unfold InInt32; omega)]
    refine iff_of_true (hg.addVersion ?_ le_rfl ?_) hlt
    · intro hu
      have := hle _ hu
      omega
    · intro u hu
      have := hle u hu
      omega
  · rw [show p.2 = 2147483647 by omega]
    exact iff_of_false (not_ok_addVersion_overflow hp hrange.1) (lt_irrefl _)

theorem duplicateVersion_ok_iff (hg : g.Ok) (hp : p ∈ g) (hrange : InInt32 p.1 ∧ InInt32 p.2)
    (v : Int) : (duplicateVersion p.2 v g).Ok ↔ (v = -1 → v ∈ g.versions ∨ p.2 < 2147483647) := by
  rw [duplicateVersion]
  by_cases hmem : v ∈ g.versions
  · rw [if_pos hmem]
    exact iff_of_true hg fun _ => .inl hmem
  · rw [if_neg hmem, or_iff_right hmem]
    by_cases hv : v = -1
    · rw [if_pos hv, addNext_ok_iff hg hp hrange, imp_iff_right hv]
    · rw [if_neg hv]
      refine iff_of_true (hg.addVersion hmem (le_max_right _ _) ?_) fun h => absurd h hv
      intro u hu
      exact (hg.le_of_mem_versions hp hu).trans (le_max_left _ _)

/-- What a copy into the group does. -/
def copyVersion (g : VersionGroup) : VersionGroup :=
  let m := (g.map Prod.snd).foldl max (-1)
  let w := if 0 ≤ m then wrapInt32 (m + 1) else 0
  addVersion w w g

theorem copyVersion_ok_iff (hg : g.Ok) (hrange : g.InRange) :
    g.copyVersion.Ok ↔ ∀ p ∈ g, p.2 < 2147483647 := by
  rw [copyVersion]
  have hm := @le_foldl_max Int _ (g.map Prod.snd) (-1)
  generalize (g.map Prod.snd).foldl max (-1) = m at hm
  -- every entry knows of at most `m`, and `m` is known to one or -1
  have hle : ∀ p ∈ g, p.2 ≤ m := fun p hp => hm.mpr (.inr ⟨p.2, mem_map_of_mem hp, le_rfl⟩)
  have hversions : ∀ u ∈ g.versions, u ≤ m := by
    intro u hu
    obtain ⟨q, hq, rfl⟩ := mem_map.mp hu
    exact (hg.2 q hq q hq).trans (hle q hq)
  by_cases hzero : 0 ≤ m
  · obtain ⟨y, hy, hmy⟩ := (hm.mp le_rfl).resolve_left (by omega)
    obtain ⟨p, hp, rfl⟩ := mem_map.mp hy
    obtain rfl : m = p.2 := le_antisymm hmy (hle p hp)
    rw [if_pos hzero, addNext_ok_iff hg hp (hrange p hp)]
    exact ⟨fun hlt q hq => (hle q hq).trans_lt hlt, fun h => h p hp⟩
  · rw [if_neg hzero]
    refine iff_of_true (hg.addVersion ?_ le_rfl ?_) fun q hq => ?_
    · intro hu
      exact hzero (hversions 0 hu)
    · intro u hu
      have := hversions u hu
      omega
    · have := hle q hq
      omega

/-! ## Sidecar files -/

def firstMax (g : VersionGroup) : Int := (g.head?.map Prod.snd).getD 0

def readRest (g : VersionGroup) (vs : List Int) : VersionGroup :=
  vs.foldl (fun g v => duplicateVersion g.firstMax v g) g

/-- What reading sidecar files of the versions `vs` does: the first sets the first entry. -/
def readVersions (g : VersionGroup) (vs : List Int) : VersionGroup :=
  match g, vs with
  | _ :: others, v :: vs => readRest ((v, v) :: others) vs
  | _, _ => g

-- the versions that get an entry, `taken` having one and `m` being the highest known version
def newVersions (taken : List Int) (m : Int) : List Int → List Int
  | [] => []
  | v :: vs =>
      if v ∈ taken then newVersions taken m vs
      else
        let w := if v = -1 then m + 1 else v
        w :: newVersions (taken ++ [w]) (max m w) vs

theorem firstMax_addVersion (hg : g ≠ []) (w m : Int) : (addVersion w m g).firstMax = m := by
  cases g with
  | nil => exact absurd rfl hg
  | cons p g => rfl

theorem addVersion_ne_nil (w m : Int) (g : VersionGroup) : addVersion w m g ≠ [] := by
  simp [addVersion]

theorem versions_prefix_duplicateVersion (m v : Int) (g : VersionGroup) :
    g.versions <+: (duplicateVersion m v g).versions := by
  unfold duplicateVersion
  split
  · exact prefix_rfl
  · split <;> rw [versions_addVersion] <;> exact prefix_append _ _

-- One version twice, or the highest number used and not known.
def Spoilt (g : VersionGroup) : Prop :=
  ¬ g.versions.Nodup ∨ (2147483647 ∈ g.versions ∧ g.firstMax < 2147483647)

theorem Spoilt.duplicateVersion (h : g.Spoilt) (hg : g ≠ []) {v : Int}
    (hv : InInt32 v) (hm : InInt32 g.firstMax) : (duplicateVersion g.firstMax v g).Spoilt := by
  have hprefix := versions_prefix_duplicateVersion g.firstMax v g
  rcases h with htwice | ⟨htop, hlow⟩
  · exact .inl fun hnodup => htwice (hnodup.sublist hprefix.sublist)
  · by_cases hmem : v ∈ g.versions
    · rw [VersionGroup.duplicateVersion, if_pos hmem]
      exact .inr ⟨htop, hlow⟩
    · by_cases hnext : v = -1
      · have hwrap : wrapInt32 (g.firstMax + 1) = g.firstMax + 1 := by
          apply wrapInt32_of_inInt32
          unfold InInt32 at *
          omega
        rw [VersionGroup.duplicateVersion, if_neg hmem, if_pos hnext, hwrap, Spoilt,
          versions_addVersion, firstMax_addVersion hg]
        by_cases hlast : g.firstMax + 1 = 2147483647
        · refine .inl fun hnodup => ?_
          rw [hlast, nodup_append] at hnodup
          exact hnodup.2.2 _ htop _ (mem_singleton_self _) rfl
        · exact .inr ⟨mem_append_left _ htop, by omega⟩
      · have hne : v ≠ 2147483647 := fun h => hmem (h ▸ htop)
        rw [VersionGroup.duplicateVersion, if_neg hmem, if_neg hnext, Spoilt,
          versions_addVersion, firstMax_addVersion hg]
        refine .inr ⟨mem_append_left _ htop, ?_⟩
        unfold InInt32 at hv
        omega

theorem duplicateVersion_ne_nil (hg : g ≠ []) (m v : Int) : duplicateVersion m v g ≠ [] := by
  unfold duplicateVersion
  split
  · exact hg
  · split <;> exact addVersion_ne_nil _ _ _

theorem InRange.duplicateVersion (h : g.InRange) {m v : Int} (hm : InInt32 m)
    (hv : InInt32 v) : (duplicateVersion m v g).InRange := by
  unfold VersionGroup.duplicateVersion
  split
  · exact h
  · split
    · exact h.addVersion (inInt32_wrapInt32 _) (inInt32_wrapInt32 _)
    · refine h.addVersion hv ?_
      unfold InInt32 at *
      omega

theorem InRange.firstMax (h : g.InRange) : InInt32 g.firstMax := by
  cases g with
  | nil => exact ⟨by decide, by decide⟩
  | cons p g => exact (h p mem_cons_self).2

theorem Spoilt.not_ok (h : g.Spoilt) (hg : g ≠ []) : ¬ g.Ok := by
  intro hok
  rcases h with htwice | ⟨htop, hlow⟩
  · exact htwice hok.1
  · cases g with
    | nil => exact hg rfl
    | cons p g =>
      have hle := hok.le_of_mem_versions mem_cons_self htop
      have hfirst : firstMax (p :: g) = p.2 := rfl
      omega

theorem Spoilt.not_ok_readRest (h : g.Spoilt) (hg : g ≠ []) (hrange : g.InRange)
    (hvs : ∀ v ∈ vs, InInt32 v) : ¬ (readRest g vs).Ok := by
  induction vs generalizing g with
  | nil => exact h.not_ok hg
  | cons v vs ih =>
    have hv := hvs v mem_cons_self
    exact ih (h.duplicateVersion hg hv hrange.firstMax) (duplicateVersion_ne_nil hg _ _)
      (hrange.duplicateVersion hrange.firstMax hv) fun u hu => hvs u (mem_cons_of_mem _ hu)

/-- What the rest of the sidecar files has to be. -/
def RestFits (g : VersionGroup) (m : Int) (new : List Int) : Prop :=
  (g.versions ++ new).Nodup ∧ (∀ w ∈ new, w ≤ 2147483647) ∧
    if new = [] then g.Ok else ∀ u ∈ g.versions, ∃ w ∈ m :: new, u ≤ w

theorem restFits_cons {new : List Int} (hw : w ≤ 2147483647) :
    RestFits g m (w :: new) ↔ RestFits (addVersion w (max m w) g) (max m w) new := by
  unfold RestFits
  rw [versions_addVersion, append_assoc]
  refine and_congr_right fun hnodup => ?_
  have hnew : ∀ u, (∃ x ∈ m :: w :: new, u ≤ x) ↔ ∃ x ∈ max m w :: new, u ≤ x := by
    intro u
    simp [or_assoc]
  simp only [hnew, forall_mem_cons, hw, true_and]
  refine and_congr_right fun _ => ?_
  by_cases hnil : new = []
  · rw [addVersion_ok_iff]
    rw [hnil] at hnodup ⊢
    simp [hnodup, or_imp, forall_and]
  · rw [if_neg hnil]
    simp [or_imp, forall_and]

theorem readRest_ok_iff (hg : g ≠ []) (hrange : g.InRange) (hfirst : g.firstMax ∈ g.versions)
    (hvs : ∀ v ∈ vs, InInt32 v) :
    (readRest g vs).Ok ↔ RestFits g g.firstMax (newVersions g.versions g.firstMax vs) := by
  induction vs generalizing g with
  | nil =>
    have hnil : newVersions g.versions g.firstMax [] = [] := rfl
    rw [hnil, RestFits, append_nil]
    constructor
    · intro hok
      exact ⟨hok.1, fun w hw => absurd hw not_mem_nil, hok⟩
    · exact fun h => h.2.2
  | cons v vs ih =>
    have hv := hvs v mem_cons_self
    have hvs : ∀ u ∈ vs, InInt32 u := fun u hu => hvs u (mem_cons_of_mem _ hu)
    have hm := hrange.firstMax
    have hstep : readRest g (v :: vs) = readRest (duplicateVersion g.firstMax v g) vs := rfl
    rw [hstep, newVersions]
    by_cases hmem : v ∈ g.versions
    · rw [duplicateVersion, if_pos hmem, if_pos hmem]
      exact ih hg hrange hfirst hvs
    · rw [if_neg hmem]
      by_cases htop : v = -1 ∧ g.firstMax = 2147483647
      · -- the number is too high, so the group is spoilt
        have hspoilt : (duplicateVersion g.firstMax v g).Spoilt := by
          rw [duplicateVersion, if_neg hmem, if_pos htop.1, htop.2, Spoilt,
            versions_addVersion, firstMax_addVersion hg]
          exact .inr ⟨mem_append_left _ (htop.2 ▸ hfirst), by decide⟩
        refine iff_of_false (hspoilt.not_ok_readRest (duplicateVersion_ne_nil hg _ _)
          (hrange.duplicateVersion hm hv) hvs) fun h => ?_
        have hle := h.2.1 _ mem_cons_self
        omega
      · -- the entry that is added knows of itself or of what the first knows
        generalize hw : (if v = -1 then g.firstMax + 1 else v) = w
        have hwrange : InInt32 w := by
          unfold InInt32 at *
          split at hw <;> omega
        have hadd : duplicateVersion g.firstMax v g = addVersion w (max g.firstMax w) g := by
          rw [duplicateVersion, if_neg hmem]
          by_cases hnext : v = -1
          · rw [if_pos hnext] at hw ⊢
            rw [hw, wrapInt32_of_inInt32 hwrange, max_eq_right (by omega)]
          · rw [if_neg hnext] at hw ⊢
            rw [hw]
        have hmaxmem : max g.firstMax w ∈ (addVersion w (max g.firstMax w) g).versions := by
          rw [versions_addVersion]
          rcases max_choice g.firstMax w with h | h <;> rw [h]
          · exact mem_append_left _ hfirst
          · exact mem_append_right _ (mem_singleton_self _)
        have hmrange : InInt32 (max g.firstMax w) := by
          unfold InInt32 at *
          omega
        rw [restFits_cons hwrange.2, hadd]
        have := ih (addVersion_ne_nil w (max g.firstMax w) g) (hrange.addVersion hwrange hmrange)
          (by rw [firstMax_addVersion hg]; exact hmaxmem) hvs
        rw [firstMax_addVersion hg, versions_addVersion] at this
        exact this

/-- The versions of the sidecar files fit to the rows of a file, the first row apart: the first
version is not taken; if nothing new comes of the others it is the highest, and known to the other
rows; else the highest of them all is one that was read. -/
def SidecarsFit (others : VersionGroup) : List Int → Prop
  | [] => True
  | v :: vs =>
      let new := newVersions (v :: others.versions) v vs
      ((v :: others.versions) ++ new).Nodup ∧ (∀ w ∈ new, w ≤ 2147483647) ∧
        if new = [] then ∀ p ∈ others, p.1 ≤ v ∧ v ≤ p.2
        else ∀ p ∈ others, ∃ w ∈ v :: new, p.1 ≤ w

theorem readVersions_ok_iff {others : VersionGroup} (hg : Ok (p :: others))
    (hrange : InRange (p :: others)) (hvs : ∀ v ∈ vs, InInt32 v) :
    (readVersions (p :: others) vs).Ok ↔ SidecarsFit others vs := by
  cases vs with
  | nil => exact iff_of_true hg trivial
  | cons v vs =>
    have hv := hvs v mem_cons_self
    have hgroup : InRange ((v, v) :: others) := by
      intro q hq
      rcases mem_cons.mp hq with rfl | hq
      · exact ⟨hv, hv⟩
      · exact hrange q (mem_cons_of_mem _ hq)
    have hread := readRest_ok_iff (cons_ne_nil _ _) hgroup mem_cons_self
      (fun u hu => hvs u (mem_cons_of_mem _ hu))
    have hfirst : Ok ((v, v) :: others) ↔
        v ∉ others.versions ∧ ∀ q ∈ others, q.1 ≤ v ∧ v ≤ q.2 := by
      constructor
      · intro hok
        exact ⟨(nodup_cons.mp hok.1).1, fun q hq =>
          ⟨hok.2 _ mem_cons_self q (mem_cons_of_mem _ hq),
            hok.2 q (mem_cons_of_mem _ hq) _ mem_cons_self⟩⟩
      · rintro ⟨hnot, hle⟩
        refine ⟨nodup_cons.mpr ⟨hnot, (nodup_cons.mp hg.1).2⟩, ?_⟩
        intro q hq r hr
        rcases mem_cons.mp hq with rfl | hq
        · rcases mem_cons.mp hr with rfl | hr
          · exact le_rfl
          · exact (hle r hr).1
        · rcases mem_cons.mp hr with rfl | hr
          · exact (hle q hq).2
          · exact hg.2 q (mem_cons_of_mem _ hq) r (mem_cons_of_mem _ hr)
    refine hread.trans ?_
    change RestFits _ v (newVersions (v :: others.versions) v vs) ↔ _
    rw [RestFits, hfirst]
    refine and_congr_right fun hnodup => and_congr_right fun _ => ?_
    split
    · have hnot : v ∉ others.versions := (nodup_cons.mp hnodup.of_append_left).1
      exact and_iff_right hnot
    · simp [versions]

end VersionGroup

end DTLite
