import Mathlib.Data.List.DropRight
import Mathlib.Data.List.Infix

/-! Texts as lists of characters: splitting at a separator or at its last occurrence, printing
a number, also into a field of fixed width, and reading a number back. -/

namespace DTLite.Reasoning

open List

section LastSplit

variable {α : Type*} [DecidableEq α]

-- What stands before the last `a`, and the rest from that `a` on. A list without `a` is all rest.
def lastSplit (a : α) : List α → List α × List α
  | [] => ([], [])
  | x :: xs => if a ∈ xs then (x :: (lastSplit a xs).1, (lastSplit a xs).2) else ([], x :: xs)

theorem lastSplit_append (a : α) (l : List α) : (lastSplit a l).1 ++ (lastSplit a l).2 = l := by
  induction l with
  | nil => rfl
  | cons x xs ih =>
    rw [lastSplit]
    split
    · simp [ih]
    · rfl

theorem length_lastSplit (a : α) (l : List α) :
    (lastSplit a l).1.length + (lastSplit a l).2.length = l.length := by
  rw [← length_append, lastSplit_append]

theorem lastSplit_append_cons {a : α} (x : List α) {u : List α} (hu : a ∉ u) :
    lastSplit a (x ++ a :: u) = (x, a :: u) := by
  induction x with
  | nil => rw [nil_append, lastSplit, if_neg hu]
  | cons b x ih => rw [cons_append, lastSplit, if_pos (by simp), ih]

theorem exists_lastSplit {a : α} {l : List α} (h : a ∈ l) :
    ∃ x u, l = x ++ a :: u ∧ a ∉ u ∧ lastSplit a l = (x, a :: u) := by
  obtain ⟨v, y, hl, hv⟩ := eq_append_cons_of_mem (mem_reverse.mpr h)
  have hsplit : l = y.reverse ++ a :: v.reverse := by
    rw [← reverse_reverse l, hl]
    simp
  have hnot : a ∉ v.reverse := fun hmem => hv (mem_reverse.mp hmem)
  exact ⟨y.reverse, v.reverse, hsplit, hnot, hsplit ▸ lastSplit_append_cons _ hnot⟩

theorem append_cons_inj {a : α} {x y u v : List α} (hu : a ∉ u) (hv : a ∉ v)
    (h : x ++ a :: u = y ++ a :: v) : x = y ∧ u = v := by
  have hsplit := congrArg (lastSplit a) h
  rw [lastSplit_append_cons x hu, lastSplit_append_cons y hv] at hsplit
  exact ⟨congrArg Prod.fst hsplit, (cons.inj (congrArg Prod.snd hsplit)).2⟩

theorem not_mem_of_mem_splitOn {a : α} {l piece : List α} (h : piece ∈ l.splitOn a) :
    a ∉ piece := by
  rw [splitOn] at h
  induction l generalizing piece with
  | nil =>
    rw [mem_singleton.mp h]
    exact not_mem_nil
  | cons x l ih =>
    rw [splitOnP_cons_eq_if_modifyHead] at h
    by_cases hx : x = a
    · rw [if_pos (beq_iff_eq.mpr hx)] at h
      rcases mem_cons.mp h with rfl | h
      · exact not_mem_nil
      · exact ih h
    · rw [if_neg (by simpa using hx)] at h
      cases hsplit : splitOnP (· == a) l with
      | nil =>
        rw [hsplit] at h
        cases h
      | cons first pieces =>
        rw [hsplit] at h ih
        rcases mem_cons.mp h with rfl | h
        · intro hmem
          rcases mem_cons.mp hmem with heq | hmem
          · exact hx heq.symm
          · exact ih mem_cons_self hmem
        · exact ih (mem_cons_of_mem _ h)

end LastSplit

-- `%*d` and `%0*d`: the decimal digits of `n`, filled on the left up to a width.
def printPadded (fill : Char) (width n : Nat) : List Char :=
  (Nat.toDigits 10 n).leftpad width fill

theorem printPadded_eq (fill : Char) (width n : Nat) :
    printPadded fill width n =
      replicate (width - (Nat.toDigits 10 n).length) fill ++ Nat.toDigits 10 n := rfl

theorem not_mem_printPadded_zero {c : Char} (hdigit : ¬ c.isDigit) (width n : Nat) :
    c ∉ printPadded '0' width n := by
  intro h
  rcases mem_append.mp h with hzero | hmem
  · rw [eq_of_mem_replicate hzero] at hdigit
    exact hdigit rfl
  · exact hdigit (Nat.isDigit_of_mem_toDigits (by decide) (by decide) hmem)

theorem ofDigitChars_printPadded_zero (width n : Nat) :
    Nat.ofDigitChars 10 (printPadded '0' width n) 0 = n := by
  have hzeros : ∀ k, Nat.ofDigitChars 10 (replicate k '0') 0 = 0 := by
    intro k
    induction k with
    | zero => rfl
    | succ k ih => exact ih
  rw [printPadded_eq, Nat.ofDigitChars_append, hzeros,
    Nat.ofDigitChars_toDigits (by decide) (by decide)]

theorem printPadded_zero_inj {width m n : Nat}
    (h : printPadded '0' width m = printPadded '0' width n) : m = n := by
  rw [← ofDigitChars_printPadded_zero width m, h, ofDigitChars_printPadded_zero]

-- A text read as a number: the digits with the blanks around them taken off, all of the text.
def numeral? (text : List Char) : Option Nat :=
  let digits := (text.dropWhile (· = ' ')).rdropWhile (· = ' ')
  if digits ≠ [] ∧ digits.all Char.isDigit then some (Nat.ofDigitChars 10 digits 0) else none

theorem numeral?_blanks_append {digits : List Char} (k : Nat) (hne : digits ≠ [])
    (hdigits : ∀ c ∈ digits, c.isDigit) :
    numeral? (replicate k ' ' ++ digits) = some (Nat.ofDigitChars 10 digits 0) := by
  have hblank : ∀ c ∈ digits, ¬ decide (c = ' ') = true := by
    intro c hc hblank
    have := hdigits c hc
    rw [of_decide_eq_true hblank] at this
    cases this
  have hdrop : (replicate k ' ' ++ digits).dropWhile (· = ' ') = digits := by
    rw [dropWhile_append_of_pos (by intro c hc; simp [eq_of_mem_replicate hc])]
    obtain ⟨d, ds, rfl⟩ := exists_cons_of_ne_nil hne
    exact dropWhile_cons_of_neg (hblank d mem_cons_self)
  have hrdrop : digits.rdropWhile (· = ' ') = digits := by
    rw [rdropWhile_eq_self_iff]
    intro hl
    exact hblank _ (getLast_mem hl)
  rw [numeral?, hdrop, hrdrop, if_pos ⟨hne, all_eq_true.2 hdigits⟩]

variable {text rest : List Char}

theorem numeral?_eq_none_of_mem {c : Char} (hc : c ∈ text) (hblank : c ≠ ' ')
    (hdigit : c.isDigit = false) : numeral? text = none := by
  have keeps : ∀ l : List Char, c ∈ l → c ∈ l.dropWhile (· = ' ') := by
    intro l hl
    rw [← takeWhile_append_dropWhile (p := (· = ' ')) (l := l)] at hl
    refine (mem_append.1 hl).resolve_left fun htake => hblank ?_
    simpa using mem_takeWhile_imp htake
  have hkept : c ∈ (text.dropWhile (· = ' ')).rdropWhile (· = ' ') := by
    rw [rdropWhile, mem_reverse]
    apply keeps
    rw [mem_reverse]
    exact keeps text hc
  rw [numeral?, if_neg]
  rintro ⟨-, hall⟩
  exact absurd (all_eq_true.1 hall c hkept) (by simp [hdigit])

-- `%d`.
def printInt : Int → List Char
  | .ofNat n => Nat.toDigits 10 n
  | .negSucc n => '-' :: Nat.toDigits 10 (n + 1)

-- The digits that a text starts with, as a number, and what follows them.
def scanDigits (text : List Char) : Option (Nat × List Char) :=
  let digits := text.takeWhile Char.isDigit
  if digits = [] then none
  else some (Nat.ofDigitChars 10 digits 0, text.dropWhile Char.isDigit)

-- `strtol(…, 10)`: blanks, a sign and digits; the number and what follows it.
def strtol (text : List Char) : Option (Int × List Char) :=
  match text.dropWhile Char.isWhitespace with
  | '-' :: rest => (scanDigits rest).map fun r => (-(r.1 : Int), r.2)
  | '+' :: rest => (scanDigits rest).map fun r => ((r.1 : Int), r.2)
  | rest => (scanDigits rest).map fun r => ((r.1 : Int), r.2)

theorem scanDigits_suffix {n : Nat} (h : scanDigits text = some (n, rest)) : rest <:+ text := by
  rw [scanDigits] at h
  split at h
  · cases h
  · cases h
    exact text.dropWhile_suffix _

theorem strtol_suffix {i : Int} (h : strtol text = some (i, rest)) : rest <:+ text := by
  have hblanks : text.dropWhile Char.isWhitespace <:+ text := text.dropWhile_suffix _
  unfold strtol at h
  split at h
  next t ht =>
    obtain ⟨⟨n, r⟩, hscan, heq⟩ := Option.map_eq_some_iff.mp h
    cases heq
    exact (scanDigits_suffix hscan).trans ((suffix_cons '-' t).trans (ht ▸ hblanks))
  next t ht =>
    obtain ⟨⟨n, r⟩, hscan, heq⟩ := Option.map_eq_some_iff.mp h
    cases heq
    exact (scanDigits_suffix hscan).trans ((suffix_cons '+' t).trans (ht ▸ hblanks))
  next =>
    obtain ⟨⟨n, r⟩, hscan, heq⟩ := Option.map_eq_some_iff.mp h
    cases heq
    exact (scanDigits_suffix hscan).trans hblanks

theorem scanDigits_toDigits_append (n : Nat) (hrest : ∀ c ∈ rest.head?, ¬ c.isDigit) :
    scanDigits (Nat.toDigits 10 n ++ rest) = some (n, rest) := by
  have hdigits : ∀ c ∈ Nat.toDigits 10 n, c.isDigit :=
    fun c => Nat.isDigit_of_mem_toDigits (by decide) (by decide)
  have hstop : rest.takeWhile Char.isDigit = [] ∧ rest.dropWhile Char.isDigit = rest := by
    cases rest with
    | nil => exact ⟨rfl, rfl⟩
    | cons c rest =>
      have hc : ¬ c.isDigit := hrest c rfl
      exact ⟨takeWhile_cons_of_neg hc, dropWhile_cons_of_neg hc⟩
  rw [scanDigits, takeWhile_append_of_pos hdigits, dropWhile_append_of_pos hdigits,
    hstop.1, hstop.2, append_nil, if_neg Nat.toDigits_ne_nil,
    Nat.ofDigitChars_toDigits (by decide) (by decide)]

/-- Reading back a printed number, up to the next character that is not a digit. -/
theorem strtol_printInt_append (i : Int) (hrest : ∀ c ∈ rest.head?, ¬ c.isDigit) :
    strtol (printInt i ++ rest) = some (i, rest) := by
  cases i with
  | negSucc n =>
    show (scanDigits (Nat.toDigits 10 (n + 1) ++ rest)).map _ = _
    rw [scanDigits_toDigits_append (n + 1) hrest]
    rfl
  | ofNat n =>
    obtain ⟨d, ds, hds⟩ := exists_cons_of_ne_nil (@Nat.toDigits_ne_nil n 10)
    have hd : d.isDigit := Nat.isDigit_of_mem_toDigits (by decide) (by decide)
      (hds ▸ mem_cons_self)
    have hblank : ¬ d.isWhitespace := by
      intro hw
      simp only [Char.isWhitespace, Bool.or_eq_true, decide_eq_true_eq] at hw hd
      rcases hw with ((hw | hw) | hw) | hw <;> subst hw <;> cases hd
    have hscan := scanDigits_toDigits_append n hrest
    rw [hds] at hscan
    show strtol (Nat.toDigits 10 n ++ rest) = _
    rw [hds, cons_append, strtol, dropWhile_cons_of_neg hblank]
    split
    · next _ heq => exact absurd ((cons.inj heq).1 ▸ hd) (by decide)
    · next _ heq => exact absurd ((cons.inj heq).1 ▸ hd) (by decide)
    · rw [← cons_append, hscan]
      rfl

theorem strtol_printInt (i : Int) : strtol (printInt i) = some (i, []) := by
  rw [← append_nil (printInt i)]
  exact strtol_printInt_append i (by simp)

theorem printInt_ne_nil (i : Int) : printInt i ≠ [] := by
  intro hnil
  have hread := strtol_printInt i
  rw [hnil] at hread
  cases hread

theorem not_mem_printInt {c : Char} (hdigit : ¬ c.isDigit) (hminus : c ≠ '-') (i : Int) :
    c ∉ printInt i := by
  cases i with
  | ofNat n =>
    exact fun h => hdigit (Nat.isDigit_of_mem_toDigits (by decide) (by decide) h)
  | negSucc n =>
    intro h
    rcases mem_cons.mp h with h | h
    · exact hminus h
    · exact hdigit (Nat.isDigit_of_mem_toDigits (by decide) (by decide) h)

end DTLite.Reasoning
