import Mathlib.Data.List.Infix

/-! Codes in which no word is the beginning of another one: what is written one word after another
can be read again. -/

namespace DTLite.Reasoning

open List

section PrefixCode

variable {α β : Type*} {code : α → List β} {S : α → Prop}

/-- Among the entries in `S`, no word is the beginning of the word of another entry. -/
def PrefixFree (code : α → List β) (S : α → Prop) : Prop :=
  ∀ a b, S a → S b → code a <+: code b → a = b

/-- Words in front of a rest that begins with no word. -/
theorem PrefixFree.flatMap_append_inj (hfree : PrefixFree code S) {l l' : List α} {t t' : List β}
    (hl : ∀ a ∈ l, S a) (hl' : ∀ a ∈ l', S a) (ht : ∀ a, S a → ¬ code a <+: t)
    (ht' : ∀ a, S a → ¬ code a <+: t') (heq : l.flatMap code ++ t = l'.flatMap code ++ t') :
    l = l' ∧ t = t' := by
  induction l generalizing l' with
  | nil =>
    cases l' with
    | nil => exact ⟨rfl, heq⟩
    | cons b l' =>
      rw [flatMap_cons, append_assoc] at heq
      exact absurd ⟨_, heq.symm⟩ (ht b (hl' b mem_cons_self))
  | cons a l ih =>
    cases l' with
    | nil =>
      rw [flatMap_cons, append_assoc] at heq
      exact absurd ⟨_, heq⟩ (ht' a (hl a mem_cons_self))
    | cons b l' =>
      rw [flatMap_cons, flatMap_cons, append_assoc, append_assoc] at heq
      have ha := hl a mem_cons_self
      have hb := hl' b mem_cons_self
      -- two words at the same place: one is the beginning of the other
      have hab : a = b := by
        have hfirst : code b <+: code a ++ (l.flatMap code ++ t) := ⟨_, heq.symm⟩
        rcases prefix_or_prefix_of_prefix (prefix_append (code a) _) hfirst with h | h
        · exact hfree a b ha hb h
        · exact (hfree b a hb ha h).symm
      subst hab
      obtain ⟨hrest, hend⟩ := ih (fun x hx => hl x (mem_cons_of_mem _ hx))
        (fun x hx => hl' x (mem_cons_of_mem _ hx)) (append_cancel_left heq)
      exact ⟨congrArg (a :: ·) hrest, hend⟩

/-- Words with a head that tells how much comes after it. -/
theorem prefixFree_of_head (head tail : α → List β) (hcode : ∀ a, code a = head a ++ tail a)
    (hhead : ∀ a b, S a → S b → head a <+: head b → head a = head b)
    (hlength : ∀ a b, S a → S b → head a = head b → (tail a).length = (tail b).length)
    (hinj : ∀ a b, S a → S b → head a = head b → tail a = tail b → a = b) :
    PrefixFree code S := by
  intro a b ha hb hfirst
  rw [hcode, hcode] at hfirst
  have heads : head a = head b := by
    rcases prefix_or_prefix_of_prefix ((prefix_append ..).trans hfirst)
      (prefix_append ..) with h | h
    · exact hhead a b ha hb h
    · exact (hhead b a hb ha h).symm
  rw [heads, prefix_append_right_inj] at hfirst
  exact hinj a b ha hb heads (hfirst.eq_of_length (hlength a b ha hb heads))

end PrefixCode

end DTLite.Reasoning
