import DTLite.Develop.ModuleInstances
import DTLite.Reasoning.Runs

/-!
# Raster masks

A module can take the mask that another one has drawn.  The link is kept twice: the module points to
the source of its mask, and the source has a table of its users.
-/

namespace DTLite

open Reasoning Function List

/-- What `dt_develop_blend_params_t` says about a raster mask. -/
structure RasterMaskParams where
  rasterMaskSource : String
  rasterMaskInstance : Int
  rasterMaskId : Int
deriving DecidableEq, Repr

-- `raster_mask.source.users` of each module: its users, with the id of the mask.
abbrev MaskUsers := ModuleRef → ModuleRef → Option Int

def MaskUsers.set (users : MaskUsers) (n m : ModuleRef) (id : Option Int) : MaskUsers :=
  update users n (update (users n) m id)

/-- The modules in memory, with `raster_mask.sink.source` and `raster_mask.sink.id` of each. -/
structure RasterModules where
  dev : HistoryStack
  op : ModuleRef → String
  multiPriority : ModuleRef → Int
  blendParams : ModuleRef → RasterMaskParams
  users : MaskUsers
  source : ModuleRef → Option ModuleRef
  id : ModuleRef → Int
  nodup : dev.iop.Nodup

namespace RasterModules

variable (s : RasterModules) (m : ModuleRef)

-- The module is taken out of the table of the source it has had.
def unlinked : MaskUsers :=
  match s.source m with
  | some old => s.users.set old m none
  | none => s.users

-- The module is put into the table of its new source.
def relinked (found : Option ModuleRef) (id : Int) : MaskUsers :=
  match found with
  | some n => (s.unlinked m).set n m (some id)
  | none => s.unlinked m

def dtIopCommitBlendParams (params : RasterMaskParams) : RasterModules :=
  let found := s.dev.iop.find? fun n => s.op n = params.rasterMaskSource ∧
    s.multiPriority n = params.rasterMaskInstance
  { s with
    blendParams := update s.blendParams m params
    users := s.relinked m found params.rasterMaskId
    source := update s.source m found
    id := update s.id m (if found.isSome then params.rasterMaskId else 0) }

/-- Both sides of a link agree, and no module points to one that is gone. -/
structure Linked : Prop where
  users_iff : ∀ n ∈ s.dev.iop, ∀ m ∈ s.dev.iop, (s.users n m).isSome ↔ s.source m = some n
  source_mem : ∀ m ∈ s.dev.iop, ∀ n, s.source m = some n → n ∈ s.dev.iop

end RasterModules

inductive RasterEvent where
  | commit (m : ModuleRef) (params : RasterMaskParams)
  | remove (guiAttached : Bool) (m : ModuleRef)

/-- A module that has been removed is not committed to any more. -/
def rasterStep (s : RasterModules) : RasterEvent → RasterModules
  | .commit m params => if m ∈ s.dev.iop then s.dtIopCommitBlendParams m params else s
  | .remove guiAttached m =>
      { s with dev := dtDevModuleRemove guiAttached s.dev m, nodup := s.nodup.erase m }

/-- A module that is removed is not the source of one that stays. -/
def RasterEvent.Unused (s : RasterModules) : RasterEvent → Prop
  | .commit _ _ => True
  | .remove _ n => ∀ m ∈ s.dev.iop, m ≠ n → s.source m ≠ some n

instance (s : RasterModules) (e : RasterEvent) : Decidable (e.Unused s) :=
  match e with
  | .commit _ _ => isTrue trivial
  | .remove _ _ => inferInstanceAs (Decidable (∀ m ∈ s.dev.iop, _))

variable {users : MaskUsers} {s : RasterModules} {m n k : ModuleRef} {id : Option Int}

namespace MaskUsers

theorem set_self : users.set n m id n m = id := by
  rw [set, update_self, update_self]

theorem set_of_ne_source {n' : ModuleRef} (hne : n' ≠ n) :
    users.set n m id n' = users n' :=
  update_of_ne hne ..

theorem set_of_ne (hne : k ≠ m) (n' : ModuleRef) : users.set n m id n' k = users n' k := by
  by_cases hn : n' = n
  · rw [hn, set, update_self, update_of_ne hne]
  · rw [set_of_ne_source hn]

end MaskUsers

namespace RasterModules

open MaskUsers

theorem relinked_of_ne (hne : k ≠ m) (found : Option ModuleRef) (id : Int) :
    s.relinked m found id n k = s.users n k := by
  have hunlinked : s.unlinked m n k = s.users n k := by
    cases hsource : s.source m with
    | none => simp only [unlinked, hsource]
    | some old => simp only [unlinked, hsource, set_of_ne hne]
  cases found with
  | none => exact hunlinked
  | some t => exact (set_of_ne hne n).trans hunlinked

theorem Linked.unlinked_self (h : s.Linked) (hm : m ∈ s.dev.iop) (hn : n ∈ s.dev.iop) :
    s.unlinked m n m = none := by
  have hiff := h.users_iff n hn m hm
  cases hsource : s.source m with
  | none => simpa [unlinked, hsource] using hiff
  | some old =>
    simp only [unlinked, hsource]
    by_cases hne : n = old
    · rw [hne, set_self]
    · rw [set_of_ne_source hne]
      simpa [hsource, Ne.symm hne] using hiff

theorem Linked.relinked_self (h : s.Linked) (hm : m ∈ s.dev.iop) (hn : n ∈ s.dev.iop)
    (found : Option ModuleRef) (id : Int) :
    (s.relinked m found id n m).isSome ↔ found = some n := by
  cases found with
  | none => simp [relinked, h.unlinked_self hm hn]
  | some t =>
    by_cases hnt : n = t
    · simp [relinked, hnt, set_self]
    · simp [relinked, set_of_ne_source hnt, h.unlinked_self hm hn, Ne.symm hnt]

/-- A module links itself to the first one that has the name, and to no other. -/
theorem Linked.commit (h : s.Linked) (hm : m ∈ s.dev.iop) (params : RasterMaskParams) :
    (s.dtIopCommitBlendParams m params).Linked := by
  constructor
  · intro n hn k hk
    simp only [dtIopCommitBlendParams]
    by_cases hne : k = m
    · rw [hne, update_self]
      exact h.relinked_self hm hn _ _
    · rw [relinked_of_ne hne, update_of_ne hne]
      exact h.users_iff n hn k hk
  · intro k hk n hsource
    simp only [dtIopCommitBlendParams] at hsource
    by_cases hne : k = m
    · rw [hne, update_self] at hsource
      exact mem_of_find?_eq_some hsource
    · rw [update_of_ne hne] at hsource
      exact h.source_mem k hk n hsource

theorem Linked.step_iff (h : s.Linked) (e : RasterEvent) :
    (rasterStep s e).Linked ↔ e.Unused s := by
  cases e with
  | commit m params =>
    refine iff_of_true ?_ trivial
    rw [rasterStep]
    split
    next hm => exact h.commit hm params
    · exact h
  | remove guiAttached n =>
    have hmem : ∀ k, k ∈ (dtDevModuleRemove guiAttached s.dev n).iop ↔ k ≠ n ∧ k ∈ s.dev.iop :=
      fun k => s.nodup.mem_erase_iff
    constructor
    · intro hlinked m hm hne hsource
      have := hlinked.source_mem m ((hmem m).mpr ⟨hne, hm⟩) n hsource
      exact ((hmem n).mp this).1 rfl
    · intro hunused
      constructor
      · intro n' hn' m hm
        exact h.users_iff n' ((hmem n').mp hn').2 m ((hmem m).mp hm).2
      · intro m hm n' hsource
        obtain ⟨hne, hmem'⟩ := (hmem m).mp hm
        refine (hmem n').mpr ⟨?_, h.source_mem m hmem' n' hsource⟩
        rintro rfl
        exact hunused m hmem' hne hsource

end RasterModules

/-- The links stay right along a run exactly if no module is removed that another one takes its mask
from. -/
theorem rasterStep_linked_iff {s : RasterModules} (h : s.Linked) (events : List RasterEvent) :
    AllStates rasterStep RasterModules.Linked s events ↔
      AllSteps rasterStep (fun s e => e.Unused s) s events :=
  allStates_iff_allSteps (fun _ e h => h.step_iff e) h

-- The modules 0 and 1, which have no raster masks.
def exposureColorin : RasterModules where
  dev := ⟨[], 0, [0, 1]⟩
  op m := if m = 0 then "exposure" else "colorin"
  multiPriority _ := 0
  blendParams _ := ⟨"", 0, 0⟩
  users _ _ := none
  source _ := none
  id _ := 0
  nodup := by decide

theorem exposureColorin_linked : exposureColorin.Linked where
  users_iff n _ m _ := by simp [exposureColorin]
  source_mem m _ n h := by cases h

-- The second module takes its mask from the first one, then from none; the first one is removed.
theorem rasterStep_linked_unused :
    AllStates rasterStep RasterModules.Linked exposureColorin
      [.commit 1 ⟨"exposure", 0, 5⟩, .commit 1 ⟨"", 0, 0⟩, .remove true 0] :=
  (rasterStep_linked_iff exposureColorin_linked _).mpr (by decide)

theorem rasterStep_dangling :
    ¬ AllStates rasterStep RasterModules.Linked exposureColorin
      [.commit 1 ⟨"exposure", 0, 5⟩, .remove true 0] := by
  intro h
  have hgone : 0 ∈ [1] := h.last.source_mem 1 (by decide) 0 (by decide)
  exact absurd hgone (by decide)

end DTLite
