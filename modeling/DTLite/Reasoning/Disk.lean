import Mathlib.Data.List.Basic

/-! A disk as the set of paths that name a file, with the trace of the files taken away so far.
Every operation is told whether the system let it succeed. -/

namespace DTLite.Reasoning

structure Disk (π : Type*) where
  files : List π
  removed : List π
  deriving DecidableEq

namespace Disk

variable {π : Type*} [DecidableEq π] (d : Disk π) (path : π) (ok : Bool)

def write : Disk π :=
  if ok ∧ path ∉ d.files then { d with files := path :: d.files } else d

def remove : Disk π :=
  if ok ∧ path ∈ d.files then
    { files := d.files.filter (· ≠ path), removed := path :: d.removed }
  else d

variable {d path ok} {p : π}

@[simp] theorem mem_write : p ∈ (d.write path ok).files ↔ p ∈ d.files ∨ (ok = true ∧ p = path) := by
  rw [write]
  split
  · simp only [List.mem_cons]
    tauto
  · rename_i h
    constructor
    · exact Or.inl
    · rintro (hp | ⟨hok, rfl⟩)
      · exact hp
      · by_contra hp
        exact h ⟨hok, hp⟩

@[simp] theorem removed_write : (d.write path ok).removed = d.removed := by
  rw [write]
  split <;> rfl

@[simp] theorem mem_remove :
    p ∈ (d.remove path ok).files ↔ p ∈ d.files ∧ ¬ (ok = true ∧ p = path) := by
  rw [remove]
  split
  · rename_i h
    simp [h.1]
  · rename_i h
    constructor
    · intro hp
      refine ⟨hp, ?_⟩
      rintro ⟨hok, rfl⟩
      exact h ⟨hok, hp⟩
    · exact And.left

@[simp] theorem mem_removed_remove :
    p ∈ (d.remove path ok).removed ↔ p ∈ d.removed ∨ (ok = true ∧ path ∈ d.files ∧ p = path) := by
  rw [remove]
  split
  · simp only [List.mem_cons]
    tauto
  · rename_i h
    constructor
    · exact Or.inl
    · rintro (hp | ⟨hok, hmem, -⟩)
      · exact hp
      · exact absurd ⟨hok, hmem⟩ h

end Disk

end DTLite.Reasoning
