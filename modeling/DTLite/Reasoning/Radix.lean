import Mathlib.Data.List.TakeWhile

/-! Numbers read in one base after they were printed in another. -/

namespace DTLite.Reasoning

open List

-- The value of a character as a digit, 36 if it is none.
def digitValue (c : Char) : Nat :=
  if c.isDigit then c.toNat - '0'.toNat
  else if c.isLower then c.toNat - 'a'.toNat + 10
  else if c.isUpper then c.toNat - 'A'.toNat + 10
  else 36

-- The digits of the base `b` that a text starts with, as a number.
def scanRadix (b : Nat) (text : List Char) : Nat :=
  (text.takeWhile fun c => digitValue c < b).foldl (fun n c => b * n + digitValue c) 0

-- `strtol(text, NULL, b)` in a base that has no prefix such as `0x`.
def strtolIn (b : Nat) (text : List Char) : Int :=
  let clamp (i : Int) : Int := max (-9223372036854775808) (min i 9223372036854775807)
  match text.dropWhile Char.isWhitespace with
  | '-' :: rest => clamp (-(scanRadix b rest : Int))
  | '+' :: rest => clamp (scanRadix b rest)
  | rest => clamp (scanRadix b rest)

theorem digitValue_digitChar {d : Nat} (hd : d < 16) : digitValue (Nat.digitChar d) = d := by
  have hall : ∀ d < 16, digitValue (Nat.digitChar d) = d := by decide
  exact hall d hd

theorem scanRadix_append_singleton (b : Nat) (text : List Char) (c : Char) :
    scanRadix b (text ++ [c]) = b * scanRadix b text + digitValue c ∨
      scanRadix b (text ++ [c]) = scanRadix b text := by
  rw [scanRadix, scanRadix, takeWhile_append]
  split
  next hall =>
    have hself : text.takeWhile (fun c => decide (digitValue c < b)) = text :=
      (List.takeWhile_prefix _).eq_of_length hall
    by_cases hc : digitValue c < b
    · left
      rw [takeWhile_cons_of_pos (by simpa using hc), foldl_append, hself]
      rfl
    · right
      rw [takeWhile_cons_of_neg (by simpa using hc), append_nil, hself]
  next => exact .inr rfl

theorem exists_digit_of_mem_toDigits {base n : Nat} (h1 : 1 < base) {c : Char}
    (hc : c ∈ Nat.toDigits base n) : ∃ d < base, c = Nat.digitChar d := by
  induction n using Nat.strongRecOn with
  | ind n ih =>
    by_cases hn : n < base
    · rw [Nat.toDigits_of_lt_base hn] at hc
      exact ⟨n, hn, mem_singleton.mp hc⟩
    · rw [Nat.toDigits_of_base_le h1 (by omega)] at hc
      rcases mem_append.mp hc with hc | hc
      · exact ih (n / base) (Nat.div_lt_self (by omega) h1) hc
      · exact ⟨n % base, Nat.mod_lt n (by omega), mem_singleton.mp hc⟩

theorem strtolIn_toDigits {b base n : Nat} (h1 : 1 < base) (hbase : base ≤ 16)
    (hn : (n : Int) ≤ 9223372036854775807) (hle : scanRadix b (Nat.toDigits base n) ≤ n) :
    strtolIn b (Nat.toDigits base n) = scanRadix b (Nat.toDigits base n) := by
  obtain ⟨c, cs, hcs⟩ := exists_cons_of_ne_nil (@Nat.toDigits_ne_nil n base)
  obtain ⟨d, hd, rfl⟩ := exists_digit_of_mem_toDigits h1 (hcs ▸ mem_cons_self)
  have hplain : ∀ d < 16, (Nat.digitChar d).isWhitespace = false ∧ Nat.digitChar d ≠ '-' ∧
      Nat.digitChar d ≠ '+' := by decide
  obtain ⟨hblank, hminus, hplus⟩ := hplain d (lt_of_lt_of_le hd hbase)
  rw [hcs] at hle ⊢
  rw [strtolIn, dropWhile_cons_of_neg (by simp [hblank])]
  split
  · next heq => exact absurd (cons.inj heq).1 hminus
  · next heq => exact absurd (cons.inj heq).1 hplus
  · dsimp only
    omega

section TwoBases

variable {b base : Nat} (hb : b < base) (hbase : base ≤ 16)
include hb hbase

theorem scanRadix_toDigits_le (h1 : 1 < base) (n : Nat) :
    scanRadix b (Nat.toDigits base n) ≤ n := by
  induction n using Nat.strongRecOn with
  | ind n ih =>
    by_cases hn : n < base
    · rw [Nat.toDigits_of_lt_base hn]
      rcases scanRadix_append_singleton b [] n.digitChar with h | h
      · rw [nil_append, digitValue_digitChar (by omega)] at h
        rw [h]
        simp [scanRadix]
      · rw [nil_append] at h
        rw [h]
        exact Nat.zero_le n
    · have hlast : n % base < 16 := lt_of_lt_of_le (Nat.mod_lt n (by omega)) hbase
      have hless := ih (n / base) (Nat.div_lt_self (by omega) h1)
      have hn : n = base * (n / base) + n % base := (Nat.div_add_mod n base).symm
      rw [Nat.toDigits_of_base_le h1 (by omega)]
      rcases scanRadix_append_singleton b (Nat.toDigits base (n / base))
        (n % base).digitChar with h | h
      · rw [h, digitValue_digitChar hlast]
        have := Nat.mul_le_mul hb.le hless
        omega
      · have := Nat.div_le_self n base
        omega

/-- A number that was printed in a larger base is read back only if it is a single digit. -/
theorem scanRadix_toDigits_eq_iff (h0 : 0 < b) (n : Nat) :
    scanRadix b (Nat.toDigits base n) = n ↔ n < b := by
  have h1 : 1 < base := by omega
  constructor
  · intro heq
    by_contra hn
    by_cases hdigit : n < base
    · rw [Nat.toDigits_of_lt_base hdigit, scanRadix, takeWhile_cons_of_neg] at heq
      · have : (0 : Nat) = n := heq
        omega
      · rw [digitValue_digitChar (by omega)]
        simpa using hn
    · have hlast : n % base < 16 := lt_of_lt_of_le (Nat.mod_lt n (by omega)) hbase
      have hfront : 0 < n / base := Nat.div_pos (by omega) (by omega)
      have hless := scanRadix_toDigits_le hb hbase h1 (n / base)
      have hn : n = base * (n / base) + n % base := (Nat.div_add_mod n base).symm
      have hmul : b * (n / base) < base * (n / base) := Nat.mul_lt_mul_of_pos_right hb hfront
      rw [Nat.toDigits_of_base_le h1 (by omega)] at heq
      rcases scanRadix_append_singleton b (Nat.toDigits base (n / base))
        (n % base).digitChar with h | h
      · rw [h, digitValue_digitChar hlast] at heq
        have := Nat.mul_le_mul_left b hless
        omega
      · have := Nat.div_lt_self (by omega : 0 < n) h1
        omega
  · intro hn
    rw [Nat.toDigits_of_lt_base (by omega), scanRadix, takeWhile_cons_of_pos]
    · show b * 0 + digitValue n.digitChar = n
      rw [digitValue_digitChar (by omega)]
      omega
    · rw [digitValue_digitChar (by omega)]
      simpa using hn

end TwoBases

end DTLite.Reasoning
