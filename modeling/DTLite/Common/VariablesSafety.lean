import DTLite.Common.Variables

/-!
# Which templates are expanded without a fault

The calls always come to an end.  They read nothing outside of the template and the values exactly
if every operation that they reach finds what it needs.
-/

namespace DTLite

open Reasoning List

/-- An operation behind a variable, with the variable's value and the text behind the operation. -/
structure VariableOperation where
  operation : Char
  base : Text
  text : Text
  -- what the pattern of `%` or `/` expands to, and what follows it
  pattern : Option (Text × Text)

-- The positions from `k` on at which the pattern occurs.
def occurrencesFrom (pattern base : Text) (k : Nat) : List Nat :=
  (range' k (base.length - k)).filter fun i => pattern.isPrefixOf (base.drop i)

def occurrences (pattern base : Text) : List Nat := occurrencesFrom pattern base 0

/-- The pattern fits a value at whose end or places it is looked for. -/
def PatternFits (mode : Option Char) (base pattern : Text) : Prop :=
  (mode = some '%' → byteLength pattern ≤ byteLength base) ∧
  -- matches that do not overlap
  (mode = some '/' → pattern ≠ [] ∧
    (occurrences pattern base).Pairwise fun i j => i + pattern.length ≤ j)

/-- The operation finds what it needs. -/
def SafeOperation (o : VariableOperation) : Prop :=
  -- a second number that is not negative, or something to count it back from
  (o.operation = ':' → (readLong o.text).2.head? = some ':' →
    0 ≤ longToInt (readLong (readLong o.text).2.tail).1 ∨
      substringStart o.base.length (readLong o.text).1 < o.base.length) ∧
  -- a pattern that is not longer than the value
  (o.operation = '%' → ∀ p ∈ o.pattern, byteLength p.1 ≤ byteLength o.base) ∧
  -- a pattern that is ended by a slash
  (o.operation = '/' → ∀ p ∈ o.pattern, p.2 ≠ [] ∧ PatternFits o.text.head? o.base p.1) ∧
  -- a value, or the operation for all of it
  (o.operation = '^' ∨ o.operation = ',' → o.text.head? = some o.operation ∨ o.base ≠ [])

instance (mode : Option Char) (base pattern : Text) : Decidable (PatternFits mode base pattern) :=
  inferInstanceAs (Decidable (_ ∧ _))

instance (o : VariableOperation) : Decidable (SafeOperation o) :=
  inferInstanceAs (Decidable (_ ∧ _ ∧ _ ∧ _))

section Scan

variable (params : VariablesParams) (exp : Option Char → Text → Except ReadStop (Text × Text))
variable (scan : Option Char → Text → List VariableOperation × Text)

-- Past `offset` and `:length`.
def skipNumbers (t : Text) : Text :=
  match (readLong t).2 with
  | ':' :: t => (readLong t).2
  | t => t

-- The operations in the operands of an operation, and what follows these.
def scanOperation (operation : Char) (t : Text) : List VariableOperation × Text :=
  match operation with
  | '-' => scan (some ')') t
  | '+' => scan (some ')') t
  | ':' => ([], skipNumbers t)
  | '#' => scan (some ')') t
  | '%' => scan (some ')') t
  | '/' =>
      let pattern := scan (some '/') (skipMode t)
      let replacement := scan (some ')') pattern.2.tail
      (pattern.1 ++ replacement.1, replacement.2)
  | '^' => ([], if t.head? = some '^' then t.tail else t)
  | ',' => ([], if t.head? = some ',' then t.tail else t)
  | _ => ([], t)

def patternOf (operation : Char) (t : Text) : Option (Text × Text) :=
  match operation with
  | '%' => (exp (some ')') t).toOption
  | '/' => (exp (some '/') (skipMode t)).toOption
  | _ => none

-- From behind the `$(` on, with what follows the `)`.
def scanVariable (t : Text) : List VariableOperation × Option Text :=
  let base := getBaseValue params t
  match base.2 with
  | [] => ([], none)
  | ')' :: t => ([], some t)
  | operation :: t =>
      if operation.utf8Size = 1 then
        let operands := scanOperation scan operation t
        (⟨operation, base.1, t, patternOf exp operation t⟩ :: operands.1,
          if operands.2.head? = some ')' then some operands.2.tail else none)
      else ([], none)

/-- The operations that the expansion of a template comes to, and what follows the template. Only
their patterns depend on the values. A `$(` that a backslash stands before begins no variable, and
one without its `)` is gone over as text. -/
def scanTemplate : Nat → Option Char → Text → List VariableOperation × Text
  | 0, _, t => ([], t)
  | n + 1, stop, t =>
      match (copyText stop t).2 with
      | '$' :: '(' :: t =>
          let found := scanVariable params (expand params n) (scanTemplate n) t
          let rest := scanTemplate n stop (found.2.getD ('(' :: t))
          (found.1 ++ rest.1, rest.2)
      | rest => ([], rest)

def operationsOf (source : Text) : List VariableOperation :=
  (scanTemplate params (source.length + 1) none source).1

end Scan

/-- A call that comes to the operations ends with such a result exactly if they are all safe. -/
def Outcome {α : Type} (ops : List VariableOperation) (P : α → Prop) :
    Except ReadStop α → Prop
  | .ok r => P r ∧ ∀ o ∈ ops, SafeOperation o
  | .error e => e ≠ .running ∧ ∃ o ∈ ops, ¬ SafeOperation o

section Outcome

variable {α β : Type} {A B : List VariableOperation} {P : α → Prop} {Q : β → Prop}
variable {x : Except ReadStop α}

theorem Outcome.congr (h : Outcome A P x) (hops : A.Perm B) : Outcome B P x := by
  cases x with
  | ok r => exact ⟨h.1, fun o ho => h.2 o (hops.mem_iff.mpr ho)⟩
  | error e =>
    obtain ⟨hne, o, ho, hunsafe⟩ := h
    exact ⟨hne, o, hops.mem_iff.mp ho, hunsafe⟩

theorem Outcome.bind (h : Outcome A P x) {f : α → Except ReadStop β}
    (hf : ∀ r, x = .ok r → P r → Outcome B Q (f r)) : Outcome (A ++ B) Q (x >>= f) := by
  cases x with
  | ok r =>
    show Outcome _ Q (f r)
    have hrest := hf r rfl h.1
    cases hr : f r with
    | ok q =>
      rw [hr] at hrest
      exact ⟨hrest.1, forall_mem_append.mpr ⟨h.2, hrest.2⟩⟩
    | error e =>
      rw [hr] at hrest
      obtain ⟨hne, o, ho, hunsafe⟩ := hrest
      exact ⟨hne, o, mem_append_right _ ho, hunsafe⟩
  | error e =>
    obtain ⟨hne, o, ho, hunsafe⟩ := h
    exact ⟨hne, o, mem_append_left _ ho, hunsafe⟩

variable {o : VariableOperation}

theorem Outcome.safe {r : α} (hP : P r) (ho : SafeOperation o) : Outcome [o] P (.ok r) :=
  ⟨hP, fun o' ho' => by rwa [mem_singleton.mp ho']⟩

theorem Outcome.fault {e : ReadStop} (he : e ≠ .running) (ho : ¬ SafeOperation o)
    (hmem : o ∈ A) : Outcome A P (.error e) :=
  ⟨he, o, hmem, ho⟩

end Outcome

/-! ## Names and operations -/

variable (params : VariablesParams)

theorem categoryValue_suffix (name t : Text) : (categoryValue params name t).2 <:+ t := by
  unfold categoryValue
  split
  next d t =>
    split
    · split
      next rest hrest =>
        have hsuffix := (suffix_cons ')' rest).trans (hrest ▸ t.dropWhile_suffix _)
        exact hsuffix.trans ((suffix_cons '(' t).trans (suffix_cons d _))
      · exact suffix_cons d _
    · exact suffix_refl _
  next d t _ =>
    split
    · exact suffix_cons d t
    · exact suffix_refl _
  · exact suffix_refl _

theorem baseValueFrom_suffix (table : List (List Text × NameRule))
    (t : Text) : (baseValueFrom params table t).2 <:+ t := by
  induction table generalizing t with
  | nil => exact t.dropWhile_suffix _
  | cons entry table ih =>
    obtain ⟨names, rule⟩ := entry
    rw [baseValueFrom]
    split
    · exact ih t
    next name _ =>
      have hdrop : t.drop name.length <:+ t := t.drop_suffix _
      cases rule with
      | plain => exact hdrop
      | infos =>
        dsimp only
        split
        · exact hdrop
        · exact (ih _).trans hdrop
      | infosTxt =>
        dsimp only
        split
        · exact hdrop
        · exact (ih _).trans hdrop
      | sequence =>
        dsimp only
        split
        next d t' hrest =>
          have hsuffix := hrest ▸ hdrop
          split
          · exact (suffix_cons d t').trans hsuffix
          · exact hsuffix
        · exact nil_suffix
      | category => exact (categoryValue_suffix params name _).trans hdrop

theorem getBaseValue_suffix (t : Text) : (getBaseValue params t).2 <:+ t :=
  baseValueFrom_suffix params variableNames t

theorem readLong_suffix (t : Text) : (readLong t).2 <:+ t := by
  rw [readLong]
  cases h : strtol t with
  | none => exact suffix_refl _
  | some r => exact strtol_suffix h

-- What a call leaves over.
def Leaves (t rest : Text) {α : Type} (r : α × Text) : Prop := r.2 = rest ∧ r.2 <:+ t

variable {exp : Option Char → Text → Except ReadStop (Text × Text)}
  {scan : Option Char → Text → List VariableOperation × Text} {n : Nat}

theorem substring_outcome (base t : Text) :
    Outcome [⟨':', base, t, none⟩] (Leaves t (skipNumbers t)) (substring base t) := by
  unfold substring
  dsimp only
  split
  next t' ht' =>
    have hskip : skipNumbers t = (readLong t').2 := by simp only [skipNumbers, ht']
    rw [hskip]
    have hsuffix : (readLong t').2 <:+ t :=
      (readLong_suffix t').trans ((suffix_cons ':' t').trans (ht' ▸ readLong_suffix t))
    have hsafe : SafeOperation ⟨':', base, t, none⟩ ↔
        0 ≤ longToInt (readLong t').1 ∨
          substringStart base.length (readLong t).1 < base.length := by
      simp [SafeOperation, ht']
    split
    next hlength => exact .safe ⟨rfl, hsuffix⟩ (hsafe.mpr (.inl hlength))
    next hlength =>
      split
      next hstart => exact .safe ⟨rfl, hsuffix⟩ (hsafe.mpr (.inr hstart))
      next hstart =>
        exact .fault (by split <;> decide) (fun h => (hsafe.mp h).elim hlength hstart)
          (mem_singleton_self _)
  next hcolon =>
    have hskip : skipNumbers t = (readLong t).2 := by
      unfold skipNumbers
      split
      next t' ht' => exact absurd ht' (hcolon t')
      · rfl
    rw [hskip]
    refine .safe ⟨rfl, readLong_suffix t⟩ ?_
    have hhead : (readLong t).2.head? ≠ some ':' := by
      intro hhead
      obtain ⟨t', ht'⟩ := head?_eq_some_iff.mp hhead
      exact hcolon t' ht'
    simp [SafeOperation, hhead]

/-- What `:offset:length` is to give. -/
def slice (base : Text) (offset length : Int) : Text :=
  let start := if 0 ≤ offset then min offset base.length else max 0 (base.length + offset)
  let stop := if 0 ≤ length then start + length else base.length + length
  (base.take stop.toNat).drop start.toNat

-- How many of the `rest` characters behind the start are taken.
def takenLength (rest : Nat) (length : Int) : Nat :=
  if 0 ≤ length then min length.toNat rest else rest - (-length).toNat

theorem slice_eq (base : Text) (offset length : Int) :
    slice base offset length = (base.drop (substringStart base.length offset)).take
      (takenLength (base.length - substringStart base.length offset) length) := by
  have hstart : substringStart base.length offset =
      (if 0 ≤ offset then min offset base.length else max 0 (base.length + offset)).toNat := by
    rw [substringStart]
    split <;> omega
  rw [slice, drop_take, ← hstart, take_eq_take_iff, length_drop, takenLength]
  split <;> omega

theorem slice_eq_slice_iff (base : Text) (offset length length' : Int) :
    slice base offset length = slice base offset length' ↔
      takenLength (base.length - substringStart base.length offset) length =
        takenLength (base.length - substringStart base.length offset) length' := by
  rw [slice_eq, slice_eq, take_eq_take_iff, length_drop, takenLength, takenLength]
  split <;> split <;> omega

theorem readLong_printInt (i : Int) {c : Char} (hc : c.isDigit = false) (t : Text) :
    readLong (printInt i ++ c :: t) = (i, c :: t) := by
  rw [readLong, strtol_printInt_append i (by simp [hc])]
  rfl

/-- The length is cut to an `int`, and counting it back from the end takes a value that goes on
behind its start. -/
theorem applyOperation_eq_slice_iff
    (exp : Option Char → Text → Except ReadStop (Text × Text)) (base t : Text)
    (offset length : Int) :
    applyOperation params exp ':' base (printInt offset ++ ':' :: (printInt length ++ ')' :: t)) =
        .ok (slice base offset length, ')' :: t) ↔
      (0 ≤ longToInt length ∨ substringStart base.length offset < base.length) ∧
        takenLength (base.length - substringStart base.length offset) (longToInt length) =
          takenLength (base.length - substringStart base.length offset) length := by
  rw [← slice_eq_slice_iff, applyOperation, substring,
    readLong_printInt offset (show (':').isDigit = false from rfl)]
  simp only [readLong_printInt length (show (')').isDigit = false from rfl)]
  by_cases hlength : 0 ≤ longToInt length
  · have htaken : slice base offset (longToInt length) =
        (base.drop (substringStart base.length offset)).take (longToInt length).toNat := by
      rw [slice_eq, takenLength, if_pos hlength, take_eq_take_iff, length_drop]
      omega
    simp [hlength, htaken]
  · have htaken : slice base offset (longToInt length) =
        (base.drop (substringStart base.length offset)).take
          (base.length - substringStart base.length offset - (-longToInt length).toNat) := by
      rw [slice_eq, takenLength, if_neg hlength]
    by_cases hstart : substringStart base.length offset < base.length
    · simp [hlength, hstart, htaken]
    · simp [hlength, hstart]

/-- No character is left from the position 3 on, and the end is looked for one before that. -/
theorem substring_past_end :
    substring "abc".toList "3:-1)".toList = .error .abort := by decide

theorem changeCase_outcome {operation : Char} (hoperation : operation = '^' ∨ operation = ',')
    (first : Char → Char) (all : Text → Text) (base t : Text) :
    Outcome [⟨operation, base, t, none⟩]
      (Leaves t (if t.head? = some operation then t.tail else t))
      (changeCase operation first all base t) := by
  have hsafe : SafeOperation ⟨operation, base, t, none⟩ ↔
      (t.head? = some operation ∨ base ≠ []) := by
    rcases hoperation with rfl | rfl <;> simp [SafeOperation]
  unfold changeCase
  split
  next hhead => exact .safe ⟨rfl, t.tail_suffix⟩ (hsafe.mpr (.inl hhead))
  next hhead =>
    cases base with
    | nil =>
      exact .fault (by decide) (fun h => (hsafe.mp h).elim hhead fun hne => hne rfl)
        (mem_singleton_self _)
    | cons c base => exact .safe ⟨rfl, suffix_refl t⟩ (hsafe.mpr (.inr (cons_ne_nil c base)))

/-- From the left, with `n` characters to go of the occurrence that was replaced last. -/
def replaceAll (pattern substitute : Text) : Nat → Text → Text
  | _, [] => []
  | n + 1, _ :: t => replaceAll pattern substitute n t
  | 0, c :: t =>
      if pattern.isPrefixOf (c :: t) then
        substitute ++ replaceAll pattern substitute (pattern.length - 1) t
      else c :: replaceAll pattern substitute 0 t

-- What the loop puts together.
def replaced (base pattern substitute : Text) : Nat → List Nat → Text
  | p, [] => base.drop p
  | p, s :: found =>
      (base.drop p).take (s - p) ++ substitute ++
        replaced base pattern substitute (s + pattern.length) found

variable {base pattern substitute : Text} {found : List Nat} {p : Nat}

-- No occurrence is before `p`, or before the end of another one.
def Apart (size p : Nat) (found : List Nat) : Prop :=
  (∀ s ∈ found, p ≤ s) ∧ found.Pairwise fun i j => i + size ≤ j

theorem apart_cons {size s : Nat} :
    Apart size p (s :: found) ↔ p ≤ s ∧ Apart size (s + size) found := by
  rw [Apart, forall_mem_cons, pairwise_cons]
  constructor
  · rintro ⟨⟨hs, -⟩, hfound⟩
    exact ⟨hs, hfound⟩
  · rintro ⟨hs, hfound⟩
    refine ⟨⟨hs, fun s' hs' => ?_⟩, hfound⟩
    have := hfound.1 s' hs'
    omega

theorem filter_range'_of_find? {P : Nat → Bool} {k n s : Nat}
    (h : (range' k n).find? P = some s) :
    (range' k n).filter P = s :: (range' (s + 1) (k + n - (s + 1))).filter P := by
  induction n generalizing k with
  | zero => cases h
  | succ n ih =>
    rw [range'_succ, find?_cons] at h
    rw [range'_succ, filter_cons]
    cases hk : P k with
    | true =>
      rw [hk] at h
      cases h
      rw [if_pos rfl, show s + (n + 1) - (s + 1) = n by omega]
    | false =>
      rw [hk] at h
      rw [if_neg Bool.false_ne_true, ih h, show k + 1 + n = k + (n + 1) by omega]

theorem occurrencesFrom_of_some {k s : Nat} (h : strstrFrom base pattern k = some s) :
    occurrencesFrom pattern base k = s :: occurrencesFrom pattern base (s + 1) := by
  have hs := mem_range_of_strstrFrom h
  rw [occurrencesFrom, filter_range'_of_find? h, occurrencesFrom, Nat.add_sub_cancel' (by omega)]

theorem occurrencesFrom_of_none {k : Nat} (h : strstrFrom base pattern k = none) :
    occurrencesFrom pattern base k = [] :=
  filter_eq_nil_iff.mpr (find?_eq_none.mp h)

theorem dtUtilStrOccurence_eq_length :
    dtUtilStrOccurence base pattern = (occurrences pattern base).length := by
  suffices ∀ k, occurenceLoop base pattern k = (occurrencesFrom pattern base k).length from this 0
  intro k
  fun_induction occurenceLoop base pattern k with
  | case1 k h => rw [occurrencesFrom_of_none h, length_nil]
  | case2 k s h ih => rw [occurrencesFrom_of_some h, length_cons, ih]

theorem replaceLoop_of_apart {k : Nat}
    (h : Apart pattern.length p (occurrencesFrom pattern base k)) :
    replaceLoop base pattern substitute p k =
      .ok (replaced base pattern substitute p (occurrencesFrom pattern base k)) := by
  fun_induction replaceLoop base pattern substitute p k with
  | case1 p k hnone =>
    rw [occurrencesFrom_of_none hnone]
    rfl
  | case2 p k s hsome hlt =>
    rw [occurrencesFrom_of_some hsome, apart_cons] at h
    omega
  | case3 p k s hsome hle ih =>
    rw [occurrencesFrom_of_some hsome] at h ⊢
    rw [ih (apart_cons.mp h).2]
    rfl

theorem replaceLoop_of_not_apart {k : Nat}
    (h : ¬ Apart pattern.length p (occurrencesFrom pattern base k)) :
    replaceLoop base pattern substitute p k = .error .value := by
  fun_induction replaceLoop base pattern substitute p k with
  | case1 p k hnone =>
    rw [occurrencesFrom_of_none hnone] at h
    exact absurd ⟨by simp, .nil⟩ h
  | case2 p k s hsome hlt => rfl
  | case3 p k s hsome hle ih =>
    rw [occurrencesFrom_of_some hsome, apart_cons] at h
    rw [ih fun hfound => h ⟨Nat.not_lt.mp hle, hfound⟩]
    rfl

-- Where nothing is found the loop would copy the value as well.
theorem dtUtilStrReplace_eq_loop (hpattern : pattern ≠ []) :
    dtUtilStrReplace base pattern substitute = replaceLoop base pattern substitute 0 0 := by
  rw [dtUtilStrReplace, if_neg hpattern]
  split
  next hcount =>
    rw [dtUtilStrOccurence_eq_length, length_eq_zero_iff, occurrences] at hcount
    rw [replaceLoop_of_apart (by rw [hcount]; exact ⟨by simp, .nil⟩), hcount]
    rfl
  · rfl

theorem length_replaced (h : Apart pattern.length p found) :
    (replaced base pattern substitute p found).length ≤
      (base.length - p) + found.length * substitute.length := by
  induction found generalizing p with
  | nil => simp [replaced]
  | cons s found ih =>
    obtain ⟨hs, hfound⟩ := apart_cons.mp h
    have hlength := ih hfound
    simp only [replaced, length_append, length_take, length_drop, length_cons, Nat.succ_mul]
    omega

-- The text is copied up to `p`, and the search is at `k`.
theorem replaced_eq_replaceAll (hpattern : pattern ≠ []) {k : Nat} {t : Text} (ht : base.drop k = t)
    (h : Apart pattern.length p
      ((range' k t.length).filter fun i => pattern.isPrefixOf (base.drop i))) :
    replaced base pattern substitute p
        ((range' k t.length).filter fun i => pattern.isPrefixOf (base.drop i)) =
      (base.drop p).take (k - p) ++ replaceAll pattern substitute (p - k) t := by
  induction t generalizing k p with
  | nil =>
    have := drop_eq_nil_iff.mp ht
    rw [replaceAll, append_nil, take_of_length_le]
    · rfl
    · rw [length_drop]
      omega
  | cons c t ih =>
    have ht' : base.drop (k + 1) = t := by
      rw [← drop_drop, ht]
      rfl
    rw [length_cons, range'_succ, filter_cons, ht] at h ⊢
    cases hk : pattern.isPrefixOf (c :: t) with
    | true =>
      rw [hk, if_pos rfl] at h
      obtain ⟨hpk, h⟩ := apart_cons.mp h
      have hpos := length_pos_of_ne_nil hpattern
      rw [if_pos rfl, replaced, ih ht' h, Nat.sub_eq_zero_of_le hpk, replaceAll, if_pos hk,
        Nat.sub_eq_zero_of_le (show k + 1 ≤ k + pattern.length by omega), take_zero, nil_append,
        Nat.add_sub_add_left, append_assoc]
    | false =>
      rw [hk, if_neg Bool.false_ne_true] at h
      rw [if_neg Bool.false_ne_true, ih ht' h]
      rcases Nat.lt_or_ge k p with hkp | hpk
      · obtain ⟨n, rfl⟩ := Nat.exists_eq_add_of_lt hkp
        rw [Nat.sub_eq_zero_of_le hkp, Nat.sub_eq_zero_of_le hkp.le, Nat.add_right_comm,
          Nat.add_sub_cancel_left, Nat.add_right_comm, Nat.add_assoc, Nat.add_sub_cancel_left,
          replaceAll]
      · have hc : (base.drop p)[k - p]? = some c := by
          rw [getElem?_drop, Nat.add_sub_cancel' hpk, ← head?_drop, ht]
          rfl
        rw [Nat.sub_eq_zero_of_le hpk, Nat.sub_eq_zero_of_le (hpk.trans k.le_succ), replaceAll,
          if_neg (by rw [hk]; decide), Nat.succ_sub hpk, take_add_one, hc, append_assoc]
        rfl

/-- All occurrences are replaced, in the memory that they were counted for, exactly if they do not
overlap. -/
theorem dtUtilStrReplace_eq_iff (hpattern : pattern ≠ []) :
    dtUtilStrReplace base pattern substitute = .ok (replaceAll pattern substitute 0 base) ∧
      (replaceAll pattern substitute 0 base).length ≤
        base.length + dtUtilStrOccurence base pattern * substitute.length ↔
    (occurrences pattern base).Pairwise fun i j => i + pattern.length ≤ j := by
  rw [dtUtilStrReplace_eq_loop hpattern, dtUtilStrOccurence_eq_length]
  constructor
  · intro h
    by_contra hfound
    rw [replaceLoop_of_not_apart fun hapart => hfound hapart.2] at h
    cases h.1
  · intro hfound
    have hapart : Apart pattern.length 0 (occurrences pattern base) :=
      ⟨fun s _ => s.zero_le, hfound⟩
    have hlength := @length_replaced base _ substitute _ _ hapart
    have hreplaced : replaced base pattern substitute 0 (occurrences pattern base) =
        replaceAll pattern substitute 0 base :=
      replaced_eq_replaceAll hpattern drop_zero hapart
    rw [replaceLoop_of_apart hapart, ← hreplaced]
    exact ⟨rfl, hlength⟩

theorem dtUtilStrReplace_eq_iff_dawn :
    dtUtilStrReplace "dawn".toList "a".toList "ow".toList =
        .ok (replaceAll "a".toList "ow".toList 0 "dawn".toList) ∧
      (replaceAll "a".toList "ow".toList 0 "dawn".toList).length ≤
        4 + dtUtilStrOccurence "dawn".toList "a".toList * 2 :=
  (dtUtilStrReplace_eq_iff (by decide)).mpr (by decide)

theorem dtUtilStrReplace_overlap :
    dtUtilStrReplace "aaa".toList "aa".toList "b".toList = .error .value := by decide +kernel

theorem cutEnd_cases (base pattern : Text) :
    (∃ cut, cutEnd base pattern = .ok cut) ∧ byteLength pattern ≤ byteLength base ∨
      cutEnd base pattern = .error .value ∧ ¬ byteLength pattern ≤ byteLength base := by
  rw [cutEnd]
  split
  next hlong => exact .inr ⟨rfl, Nat.not_le.mpr hlong⟩
  next hlong => exact .inl ⟨⟨_, rfl⟩, Nat.not_lt.mp hlong⟩

theorem replaceBy_cases (mode : Option Char) (base pattern replacement : Text) :
    (∃ value, replaceBy mode base pattern replacement = .ok value) ∧
        PatternFits mode base pattern ∨
      replaceBy mode base pattern replacement = .error .value ∧
        ¬ PatternFits mode base pattern := by
  unfold replaceBy
  split
  · by_cases hempty : pattern = []
    · exact .inr ⟨if_pos hempty, fun h => (h.2 rfl).1 hempty⟩
    · rw [dtUtilStrReplace_eq_loop hempty]
      by_cases hfound : (occurrences pattern base).Pairwise fun i j => i + pattern.length ≤ j
      · exact .inl ⟨⟨_, replaceLoop_of_apart ⟨fun s _ => s.zero_le, hfound⟩⟩, nofun,
          fun _ => ⟨hempty, hfound⟩⟩
      · exact .inr ⟨replaceLoop_of_not_apart fun hapart => hfound hapart.2,
          fun h => hfound (h.2 rfl).2⟩
  · exact .inl ⟨⟨_, rfl⟩, nofun, nofun⟩
  · rcases cutEnd_cases base pattern with ⟨⟨cut, hcut⟩, hshort⟩ | ⟨hcut, hlong⟩
    · rw [hcut]
      exact .inl ⟨⟨_, rfl⟩, fun _ => hshort, nofun⟩
    · rw [hcut]
      exact .inr ⟨rfl, fun h => hlong (h.1 rfl)⟩
  next hslash _ hpercent =>
    exact .inl ⟨⟨_, rfl⟩, fun h => absurd h hpercent, fun h => absurd h hslash⟩

/-! ## The calls -/

section Calls

variable {params : VariablesParams}

/-- What the calls inside of a call do with a text that is short enough. -/
def Expands (n : Nat) (exp : Option Char → Text → Except ReadStop (Text × Text))
    (scan : Option Char → Text → List VariableOperation × Text) : Prop :=
  ∀ stop t, t.length < n →
    Outcome (scan stop t).1 (Leaves t (scan stop t).2) (exp stop t)

theorem skipMode_suffix (t : Text) : skipMode t <:+ t := by
  rw [skipMode]
  split
  · exact t.tail_suffix
  · exact suffix_refl t

theorem Expands.replaceOperation (hexp : Expands n exp scan) {t : Text} (ht : t.length < n)
    (base : Text) :
    Outcome (⟨'/', base, t, patternOf exp '/' t⟩ :: (scanOperation scan '/' t).1)
      (Leaves t (scanOperation scan '/' t).2) (replaceOperation exp base t) := by
  have hskip := skipMode_suffix t
  have hpattern := hexp (some '/') (skipMode t) (hskip.length_le.trans_lt ht)
  refine (hpattern.bind (B := (scan (some ')') (scan (some '/') (skipMode t)).2.tail).1 ++
    [⟨'/', base, t, patternOf exp '/' t⟩]) ?_).congr ?_
  · rintro ⟨pattern, rest⟩ hread ⟨hrest, hsuffix⟩
    have hsafe : SafeOperation ⟨'/', base, t, patternOf exp '/' t⟩ ↔
        rest ≠ [] ∧ PatternFits t.head? base pattern := by
      simp [SafeOperation, patternOf, hread, Except.toOption]
    cases rest with
    | nil =>
      exact .fault (by decide) (fun h => (hsafe.mp h).1 rfl) (mem_append_right _ (by simp))
    | cons c rest =>
      have hlast : rest <:+ t := (suffix_cons c rest).trans (hsuffix.trans hskip)
      rw [← show c :: rest = (scan (some '/') (skipMode t)).2 from hrest]
      refine (hexp (some ')') rest (hlast.length_le.trans_lt ht)).bind ?_
      rintro ⟨replacement, rest'⟩ _ ⟨hrest', hsuffix'⟩
      rcases replaceBy_cases t.head? base pattern replacement with
        ⟨⟨value, hvalue⟩, hfits⟩ | ⟨hvalue, hfits⟩
      · show Outcome _ _ (replaceBy _ _ _ _ >>= _)
        rw [hvalue]
        refine .safe ⟨?_, hsuffix'.trans hlast⟩ (hsafe.mpr ⟨cons_ne_nil c rest, hfits⟩)
        show rest' = (scan (some ')') (scan (some '/') (skipMode t)).2.tail).2
        rw [← show c :: rest = (scan (some '/') (skipMode t)).2 from hrest]
        exact hrest'
      · show Outcome _ _ (replaceBy _ _ _ _ >>= _)
        rw [hvalue]
        exact .fault (by decide) (fun h => hfits (hsafe.mp h).2) (mem_singleton_self _)
  · rw [← append_assoc]
    exact perm_append_singleton _ _

theorem Expands.applyOperation (hexp : Expands n exp scan) {t : Text} (ht : t.length < n)
    (operation : Char) (base : Text) :
    Outcome (⟨operation, base, t, patternOf exp operation t⟩ ::
        (scanOperation scan operation t).1)
      (Leaves t (scanOperation scan operation t).2)
      (applyOperation params exp operation base t) := by
  -- an operand up to the `)`, and then the operation
  have hcall : ∀ {o : VariableOperation} {f : Text × Text → Except ReadStop (Text × Text)},
      (∀ r, exp (some ')') t = .ok r → Leaves t (scan (some ')') t).2 r →
        Outcome [o] (Leaves t (scan (some ')') t).2) (f r)) →
      Outcome (o :: (scan (some ')') t).1) (Leaves t (scan (some ')') t).2)
        (exp (some ')') t >>= f) := fun hf =>
    ((hexp (some ')') t ht).bind hf).congr (perm_append_singleton _ _)
  unfold DTLite.applyOperation
  split
  · exact hcall fun r _ hr => .safe hr (by simp [SafeOperation])
  · exact hcall fun r _ hr => .safe hr (by simp [SafeOperation])
  · exact substring_outcome base t
  · exact hcall fun r _ hr => .safe hr (by simp [SafeOperation])
  · refine hcall fun r hread hr => ?_
    have hsafe : SafeOperation ⟨'%', base, t, patternOf exp '%' t⟩ ↔
        byteLength r.1 ≤ byteLength base := by
      simp [SafeOperation, patternOf, hread, Except.toOption]
    rcases cutEnd_cases base r.1 with ⟨⟨cut, hcut⟩, hshort⟩ | ⟨hcut, hlong⟩
    · rw [hcut]
      exact .safe hr (hsafe.mpr hshort)
    · rw [hcut]
      exact .fault (by decide) (fun h => hlong (hsafe.mp h)) (mem_singleton_self _)
  · exact hexp.replaceOperation ht base
  · exact changeCase_outcome (.inl rfl) _ _ base t
  · exact changeCase_outcome (.inr rfl) _ _ base t
  next hminus hplus hcolon hhash hpercent hslash hup hdown =>
    have hleave : scanOperation scan operation t = ([], t) := by
      unfold scanOperation
      split <;> first | rfl | contradiction
    rw [hleave]
    exact .safe ⟨rfl, suffix_refl t⟩ (by simp_all [SafeOperation])

-- What follows the variable, if it is closed.
def Closes (t : Text) (rest : Option Text) (r : Option Text × Text) : Prop :=
  r.2 <:+ t ∧ (if r.1.isSome then rest = some r.2 else rest = none)

theorem closes_closeVariable {t rest : Text} (value : Text) (h : rest <:+ t) :
    Closes t (if rest.head? = some ')' then some rest.tail else none)
      (closeVariable value rest) := by
  by_cases hhead : rest.head? = some ')'
  · obtain ⟨rest, rfl⟩ := head?_eq_some_iff.mp hhead
    exact ⟨(suffix_cons _ _).trans h, rfl⟩
  · have hopen : closeVariable value rest = (none, rest) := by
      unfold closeVariable
      split
      · exact absurd rfl hhead
      · rfl
    rw [hopen, if_neg hhead]
    exact ⟨h, rfl⟩

theorem scanVariable_operation {operation : Char} {t t' : Text}
    (ht : (getBaseValue params t).2 = operation :: t') (hclose : operation ≠ ')') :
    scanVariable params exp scan t =
      if operation.utf8Size = 1 then
        (⟨operation, (getBaseValue params t).1, t', patternOf exp operation t'⟩ ::
            (scanOperation scan operation t').1,
          if (scanOperation scan operation t').2.head? = some ')' then
            some (scanOperation scan operation t').2.tail
          else none)
      else ([], none) := by
  unfold scanVariable
  dsimp only
  split
  next h => cases ht.symm.trans h
  next h =>
    cases ht.symm.trans h
    exact absurd rfl hclose
  next h =>
    cases ht.symm.trans h
    rfl

theorem Expands.variableGetValue (hexp : Expands n exp scan) {t : Text} (ht : t.length < n) :
    Outcome (scanVariable params exp scan t).1 (Closes t (scanVariable params exp scan t).2)
      (variableGetValue params exp t) := by
  have hname := getBaseValue_suffix params t
  unfold DTLite.variableGetValue
  dsimp only
  split
  next ht' =>
    have hscan : scanVariable params exp scan t = ([], none) := by simp only [scanVariable, ht']
    rw [hscan]
    exact ⟨⟨nil_suffix, rfl⟩, forall_mem_nil _⟩
  next t' ht' =>
    have hscan : scanVariable params exp scan t = ([], some t') := by
      simp only [scanVariable, ht']
    rw [hscan]
    exact ⟨⟨(suffix_cons ')' t').trans (ht' ▸ hname), rfl⟩, forall_mem_nil _⟩
  next operation t' hclose ht' =>
    have hsuffix : t' <:+ t := (suffix_cons operation t').trans (ht' ▸ hname)
    rw [scanVariable_operation ht' hclose]
    split
    · have hshort : t'.length < n := hsuffix.length_le.trans_lt ht
      refine ((hexp.applyOperation hshort operation _).bind (B := []) ?_).congr (by rw [append_nil])
      rintro value _ ⟨hrest, hvalue⟩
      rw [← hrest]
      exact ⟨closes_closeVariable value.1 (hvalue.trans hsuffix), forall_mem_nil _⟩
    · exact ⟨⟨hsuffix, rfl⟩, forall_mem_nil _⟩

theorem copyText_suffix (stop : Option Char) (t : Text) : (copyText stop t).2 <:+ t := by
  fun_induction copyText stop t with
  | case1 => exact suffix_refl _
  | case2 => exact suffix_refl _
  | case3 d t _ ih => exact ih.trans ((suffix_cons d t).trans (suffix_cons '\\' _))
  | case4 => exact suffix_refl _
  | case5 c t _ _ _ ih => exact ih.trans (suffix_cons c t)

theorem expands_expand (n : Nat) : Expands n (expand params n) (scanTemplate params n) := by
  induction n with
  | zero =>
    intro stop t ht
    cases ht
  | succ n ih =>
    intro stop t ht
    have hcopied := copyText_suffix stop t
    unfold expand
    dsimp only
    split
    next t' ht' =>
      rw [ht'] at hcopied
      have hlength := hcopied.length_le
      rw [length_cons, length_cons] at hlength
      have hparen : '(' :: t' <:+ t := (suffix_cons '$' _).trans hcopied
      have hsuffix : t' <:+ t := (suffix_cons '(' t').trans hparen
      simp only [scanTemplate, ht']
      refine (ih.variableGetValue (show t'.length < n by omega)).bind ?_
      rintro ⟨value, rest⟩ _ ⟨hrest, hclosed⟩
      -- behind the variable, or once more from its parenthesis on
      have hcall : ∀ {next : Text} (f : Text → Text), next.length < n → next <:+ t →
          Outcome (scanTemplate params n stop next).1
            (Leaves t (scanTemplate params n stop next).2)
            (expand params n stop next >>= fun r => pure (f r.1, r.2)) := by
        intro next f hshort hnext
        refine ((ih stop next hshort).bind (B := []) ?_).congr (by rw [append_nil])
        rintro r _ ⟨hr, hsuffix'⟩
        exact ⟨⟨hr, hsuffix'.trans hnext⟩, forall_mem_nil _⟩
      cases value with
      | some replacement =>
        have hnext : (scanVariable params (expand params n) (scanTemplate params n) t').2 =
          some rest := hclosed
        have hshort : rest.length ≤ t'.length := hrest.length_le
        rw [hnext, Option.getD_some]
        exact hcall (fun r => (copyText stop t).1 ++ replacement ++ r) (by omega)
          (hrest.trans hsuffix)
      | none =>
        have hnext : (scanVariable params (expand params n) (scanTemplate params n) t').2 =
          none := hclosed
        rw [hnext, Option.getD_none]
        exact hcall (fun r => (copyText stop t).1 ++ '$' :: r) (by rw [length_cons]; omega) hparen
    next rest hplain =>
      have hscan : scanTemplate params (n + 1) stop t = ([], (copyText stop t).2) := by
        unfold scanTemplate
        split
        next t' ht' => exact absurd ht' (hplain t')
        · rfl
      rw [hscan]
      exact ⟨⟨rfl, hcopied⟩, forall_mem_nil _⟩

end Calls

section Examples

def titleOnly (title : Text) : VariablesParams where
  values name := if name = "TITLE".toList then title else []
  infos := false
  hasTxt := false
  unicharToupper := id
  unicharTolower := id
  utf8Strup := id
  utf8Strdown := id

-- An escaped variable, a pattern with a variable, and a character of more than one byte.
example : ∀ o ∈ operationsOf (titleOnly "dawn".toList)
    "\\$(TITLE/a) $(TITLE%$(TITLE#da)) $(TITLE★)".toList, SafeOperation o := by decide +kernel

end Examples

end DTLite
