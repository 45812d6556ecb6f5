import Mathlib.Logic.Relation

/-!
# Walks over what refers to each other

A recursive visit of a graph ends if the graph has no cycle.  Until that is known, the visit takes
a number of steps and gives nothing if they do not suffice.
-/

namespace DTLite.Reasoning

open Relation List Option

section ConcatM

variable {α β σ : Type*} {f g : α → Option (List β)} {l : List α} {w : List β}

-- The results of `f`, one after the other, if it has one everywhere.
def concatM (f : α → Option (List β)) : List α → Option (List β)
  | [] => some []
  | a :: l => (f a).bind fun v => (concatM f l).map (v ++ ·)

theorem concatM_isSome (h : ∀ a ∈ l, (f a).isSome) : (concatM f l).isSome := by
  induction l with
  | nil => rfl
  | cons a l ih =>
    obtain ⟨v, hv⟩ := isSome_iff_exists.mp (h a mem_cons_self)
    have hrest := ih fun b hb => h b (mem_cons_of_mem _ hb)
    rw [concatM, hv, bind_some, isSome_map]
    exact hrest

theorem concatM_congr (h : ∀ a ∈ l, f a = g a) : concatM f l = concatM g l := by
  induction l with
  | nil => rfl
  | cons a l ih =>
    rw [concatM, concatM, h a mem_cons_self, ih fun b hb => h b (mem_cons_of_mem _ hb)]

theorem concatM_cons_eq_some {a : α} : concatM f (a :: l) = some w ↔
    ∃ v, f a = some v ∧ ∃ v', concatM f l = some v' ∧ v ++ v' = w := by
  rw [concatM, bind_eq_some_iff]
  simp

theorem mem_concatM (h : concatM f l = some w) {b : β} :
    b ∈ w ↔ ∃ a ∈ l, ∃ v, f a = some v ∧ b ∈ v := by
  induction l generalizing w with
  | nil =>
    obtain rfl : [] = w := some.inj h
    simp
  | cons a l ih =>
    obtain ⟨v, hv, v', hv', rfl⟩ := concatM_cons_eq_some.mp h
    rw [mem_append, ih hv']
    simp [hv]

theorem exists_of_concatM (h : concatM f l = some w) {a : α} (ha : a ∈ l) : ∃ v, f a = some v := by
  induction l generalizing w with
  | nil => cases ha
  | cons b l ih =>
    obtain ⟨v, hv, v', hv', -⟩ := concatM_cons_eq_some.mp h
    rcases mem_cons.mp ha with rfl | hl
    · exact ⟨v, hv⟩
    · exact ih hv' hl

theorem concatM_mono (hfg : ∀ a ∈ l, ∀ v, f a = some v → g a = some v) (h : concatM f l = some w) :
    concatM g l = some w := by
  induction l generalizing w with
  | nil => exact h
  | cons a l ih =>
    obtain ⟨v, hv, v', hv', rfl⟩ := concatM_cons_eq_some.mp h
    exact concatM_cons_eq_some.mpr ⟨v, hfg a mem_cons_self v hv, v',
      ih (fun b hb => hfg b (mem_cons_of_mem _ hb)) hv', rfl⟩

/-- A loop whose body takes the elements of `f a` one by one takes those of all the results. -/
theorem foldlM_eq_concatM {store : σ → β → σ} {step : σ → α → Option σ}
    (hstep : ∀ s a, step s a = (f a).map (·.foldl store s)) (s : σ) :
    l.foldlM step s = (concatM f l).map (·.foldl store s) := by
  induction l generalizing s with
  | nil => rfl
  | cons a l ih =>
    rw [foldlM_cons, concatM, hstep]
    cases f a with
    | none => rfl
    | some v =>
      change l.foldlM step (v.foldl store s) = _
      rw [ih, bind_some, Option.map_map]
      congr 1
      funext v'
      exact (foldl_append ..).symm

theorem foldlM_mono {step step' : σ → α → Option σ}
    (hstep : ∀ s a s', step s a = some s' → step' s a = some s') {s s' : σ}
    (h : l.foldlM step s = some s') : l.foldlM step' s = some s' := by
  induction l generalizing s with
  | nil => exact h
  | cons a l ih =>
    obtain ⟨s₁, hs₁, hrest⟩ := bind_eq_some_iff.mp h
    exact bind_eq_some_iff.mpr ⟨s₁, hstep s a s₁ hs₁, ih hrest⟩

theorem foldlM_add_length (k : Nat) :
    l.foldlM (fun k a => ((f a).map length).map (k + ·)) k =
      (concatM f l).map fun w => k + w.length := by
  induction l generalizing k with
  | nil => rfl
  | cons a l ih =>
    rw [foldlM_cons, concatM]
    cases f a with
    | none => rfl
    | some v =>
      change l.foldlM _ (k + v.length) = _
      rw [ih, bind_some, Option.map_map]
      congr 1
      funext w
      simp only [Function.comp_apply, length_append]
      omega

end ConcatM

section Walk

variable {α : Type*} {next : α → List α} {n : Nat} {a b : α} {w : List α}

/-- What is visited from `a`, each place before the places it leads to. -/
def walk (next : α → List α) : Nat → α → Option (List α)
  | 0, _ => none
  | n + 1, a => (concatM (walk next n) (next a)).map (a :: ·)

theorem walk_isSome {rank : α → Nat} (hrank : ∀ a b, b ∈ next a → rank b < rank a)
    (hn : rank a < n) : (walk next n a).isSome := by
  induction n generalizing a with
  | zero => omega
  | succ n ih =>
    rw [walk, isSome_map]
    apply concatM_isSome
    intro b hb
    have := hrank a b hb
    exact ih (by omega)

theorem walk_mono {m : Nat} (hnm : n ≤ m) (h : walk next n a = some w) :
    walk next m a = some w := by
  induction n generalizing m a w with
  | zero => cases h
  | succ n ih =>
    obtain ⟨k, rfl⟩ : ∃ k, m = k + 1 := ⟨m - 1, by omega⟩
    obtain ⟨v, hv, rfl⟩ := map_eq_some_iff.mp h
    exact map_eq_some_iff.mpr
      ⟨v, concatM_mono (fun b _ u => ih (by omega)) hv, rfl⟩

theorem mem_walk (h : walk next n a = some w) :
    b ∈ w ↔ ReflTransGen (fun a b => b ∈ next a) a b := by
  induction n generalizing a w with
  | zero => cases h
  | succ n ih =>
    obtain ⟨v, hv, rfl⟩ := map_eq_some_iff.mp h
    rw [mem_cons, mem_concatM hv, ReflTransGen.cases_head_iff, eq_comm]
    refine or_congr_right (exists_congr fun c => and_congr_right fun hc => ?_)
    -- the walk from `c` is part of this one
    obtain ⟨u, hu⟩ := exists_of_concatM hv hc
    rw [← ih hu, hu]
    simp

end Walk

end DTLite.Reasoning
