import Mathlib.Data.Finset.Card

/-! Relations without cycles, and what may be added to one. -/

namespace DTLite.Reasoning

open Relation

section Acyclic

variable {α : Type*} {r r' : α → α → Prop}

def Acyclic (r : α → α → Prop) : Prop := ∀ a, ¬ TransGen r a a

theorem Acyclic.mono (h : Acyclic r) (hsub : ∀ a b, r' a b → r a b) : Acyclic r' :=
  fun a hcycle => h a (TransGen.mono hsub a a hcycle)

theorem acyclic_of_measure (f : α → Nat) (hf : ∀ a b, r a b → f b < f a) : Acyclic r := by
  have hlt : ∀ a b, TransGen r a b → f b < f a := by
    intro a b hpath
    induction hpath with
    | single hab => exact hf _ _ hab
    | tail _ hbc ih => exact (hf _ _ hbc).trans ih
  exact fun a hcycle => Nat.lt_irrefl _ (hlt a a hcycle)

section

variable {p : α → Prop} (hclosed : ∀ a b, p a → r a b → p b)
include hclosed

theorem TransGen.and_of_closed {a b : α} (hpath : TransGen r a b) :
    (p a → TransGen (fun a b => p a ∧ p b ∧ r a b) a b) ∧
      (¬ p b → TransGen (fun a b => ¬ p a ∧ ¬ p b ∧ r a b) a b) := by
  induction hpath with
  | single hab =>
    exact ⟨fun ha => .single ⟨ha, hclosed _ _ ha hab, hab⟩,
      fun hb => .single ⟨fun ha => hb (hclosed _ _ ha hab), hb, hab⟩⟩
  | @tail b c hpath hbc ih =>
    have hp : p a → p b := by
      intro ha
      obtain ⟨b', -, hb'⟩ := TransGen.tail'_iff.mp (ih.1 ha)
      exact hb'.2.1
    refine ⟨fun ha => (ih.1 ha).tail ⟨hp ha, hclosed _ _ (hp ha) hbc, hbc⟩, ?_⟩
    intro hc
    have hb : ¬ p b := fun hb => hc (hclosed _ _ hb hbc)
    exact (ih.2 hb).tail ⟨hb, hc, hbc⟩

/-- A cycle is inside or outside of a set that nothing leaves. -/
theorem acyclic_of_closed
    (hin : Acyclic fun a b => p a ∧ p b ∧ r a b) (hout : Acyclic fun a b => ¬ p a ∧ ¬ p b ∧ r a b) :
    Acyclic r := by
  intro a hcycle
  obtain ⟨hp, hnot⟩ := TransGen.and_of_closed hclosed hcycle
  by_cases ha : p a
  · exact hin a (hp ha)
  · exact hout a (hnot ha)

end

/-- One more edge closes no cycle if it does not lead to where it comes from. -/
theorem Acyclic.insert (h : Acyclic r) {x y : α} (hxy : ¬ ReflTransGen r y x)
    (hr : ∀ a b, r' a b → r a b ∨ a = x ∧ b = y) : Acyclic r' := by
  apply acyclic_of_closed (p := ReflTransGen r y)
  · intro a b ha hab
    rcases hr a b hab with hab | ⟨rfl, -⟩
    · exact ha.tail hab
    · exact absurd ha hxy
  · refine h.mono ?_
    rintro a b ⟨ha, -, hab⟩
    rcases hr a b hab with hab | ⟨rfl, -⟩
    · exact hab
    · exact absurd ha hxy
  · refine h.mono ?_
    rintro a b ⟨-, hb, hab⟩
    rcases hr a b hab with hab | ⟨-, rfl⟩
    · exact hab
    · exact absurd .refl hb

/-- Where there are finitely many places to go to, every walk comes to an end. -/
theorem Acyclic.exists_rank [DecidableEq α] (h : Acyclic r) {l : List α}
    (hl : ∀ a b, r a b → b ∈ l) :
    ∃ rank : α → Nat, (∀ a, rank a ≤ l.length) ∧ ∀ a b, r a b → rank b < rank a := by
  classical
  refine ⟨fun a => (l.toFinset.filter (TransGen r a)).card, ?_, ?_⟩
  · intro a
    exact (Finset.card_filter_le _ _).trans (List.toFinset_card_le l)
  · intro a b hab
    apply Finset.card_lt_card
    rw [Finset.ssubset_iff_of_subset]
    · refine ⟨b, ?_, ?_⟩
      · rw [Finset.mem_filter, List.mem_toFinset]
        exact ⟨hl a b hab, .single hab⟩
      · rw [Finset.mem_filter]
        exact fun hmem => h b hmem.2
    · intro c hc
      rw [Finset.mem_filter] at hc ⊢
      exact ⟨hc.1, .head hab hc.2⟩

end Acyclic

end DTLite.Reasoning
