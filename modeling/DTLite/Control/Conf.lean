import DTLite.Common.HistoryTable
import DTLite.Reasoning.KeyValue

/-!
# The configuration

Settings by name: those given on the command line, those of the user, and their defaults.
-/

namespace DTLite

open Reasoning List

/-- `dt_conf_t`. -/
structure ConfTable where
  overrideEntries : List (Text × Text)
  table : List (Text × Text)
  defaults : List (Text × Text)

namespace ConfTable

variable (c : ConfTable) (name val : Text)

-- What `dt_conf_get_var` finds without a default.
def valueAt : Option Text := (valueOf? name c.overrideEntries).or (valueOf? name c.table)

end ConfTable

/-- A setting that is not there yet gets its default, or "garbage". -/
def dtConfGetString (c : ConfTable) (name : Text) : ConfTable × Text :=
  match c.valueAt name with
  | some str => (c, str)
  | none =>
      let str := (valueOf? name c.defaults).getD []
      ({ c with table := assign name str c.table }, str)

/-- "set the value only if it hasn't been overridden from commandline", that is with the same value.
-/
def dtConfSetString (c : ConfTable) (name val : Text) : ConfTable :=
  if valueOf? name c.overrideEntries = some val then c
  else { c with table := assign name val c.table }

def dtConfKeyExists (c : ConfTable) (name : Text) : Bool := (c.valueAt name).isSome

namespace ConfTable

variable {c : ConfTable} {name other val : Text}

theorem getString_of_valueAt {str : Text} (h : c.valueAt name = some str) :
    dtConfGetString c name = (c, str) := by
  rw [dtConfGetString, h]

theorem overrideEntries_setString :
    (dtConfSetString c name val).overrideEntries = c.overrideEntries := by
  rw [dtConfSetString]
  split <;> rfl

theorem valueAt_setString (hfree : valueOf? name c.overrideEntries = none) :
    (dtConfSetString c name val).valueAt name = some val := by
  rw [dtConfSetString, if_neg (by simp [hfree]), valueAt]
  rw [hfree, Option.none_or, valueOf?_assign]

theorem valueAt_setString_of_ne (hne : other ≠ name) :
    (dtConfSetString c name val).valueAt other = c.valueAt other := by
  rw [dtConfSetString]
  split
  · rfl
  · show (valueOf? other c.overrideEntries).or (valueOf? other (assign name val c.table)) = _
    rw [valueOf?_assign_of_ne hne]
    rfl

def names (c : ConfTable) : List Text :=
  c.overrideEntries.map Prod.fst ++ c.table.map Prod.fst

theorem mem_names : name ∈ c.names ↔ dtConfKeyExists c name := by
  rw [names, mem_append, ← valueOf?_isSome, ← valueOf?_isSome, dtConfKeyExists, valueAt,
    Option.isSome_or, Bool.or_eq_true]

end ConfTable

/-! ## Reading the file -/

-- `isspace`
def isSpace (c : Char) : Bool := c = ' ' || (9 ≤ c.toNat && c.toNat ≤ 13)

def endsLine (c : Char) : Bool := c = '\r' || c = '\n'

/-- Where `dt_conf_init` is in the file: what is left of it, `feof` and what it has stored. -/
structure ConfReading where
  rest : Text
  eof : Bool
  conf : ConfTable

/-- `i` is set in the file of the defaults, `defaults` if it is the only one. -/
def storeLine (i defaults : Bool) (conf : ConfTable) (line : Text) : ConfTable :=
  let line := line.takeWhile (· ≠ '\x00')
  match line.dropWhile (· ≠ '=') with
  | [] => conf
  | _ :: val =>
      let name := line.takeWhile (· ≠ '=')
      { conf with
        defaults := if i then assign name val conf.defaults else conf.defaults
        table := if !i || defaults then assign name val conf.table else conf.table }

/-- One turn: `fscanf(f, "%1023[^\r\n]\r\n", line)`, whose last directive skips any white space. -/
def ConfReading.turn (i defaults : Bool) (s : ConfReading) : ConfReading :=
  let line := (s.rest.take 1023).takeWhile (!endsLine ·)
  if s.rest = [] then { s with eof := true }
  -- it returns 0 and has read nothing
  else if line = [] then s
  else
    let rest := (s.rest.drop line.length).dropWhile isSpace
    ⟨rest, rest = [], storeLine i defaults s.conf line⟩

-- `while(!feof(f))`, `none` if it has not ended after so many turns
def readConf (i defaults : Bool) : Nat → ConfReading → Option ConfReading
  | 0, _ => none
  | fuel + 1, s => if s.eof then some s else readConf i defaults fuel (s.turn i defaults)

variable {i defaults : Bool} {s : ConfReading}

theorem ConfReading.turn_of_nil (hrest : s.rest = []) : (s.turn i defaults).eof = true := by
  rw [turn, if_pos hrest]

-- It is not at the end of a line.
def ConfReading.InLine (s : ConfReading) : Prop := ∀ c ∈ s.rest.head?, endsLine c = false

theorem ConfReading.InLine.turn (h : s.InLine) (hrest : s.rest ≠ []) (i defaults : Bool) :
    (s.turn i defaults).InLine ∧ (s.turn i defaults).rest.length < s.rest.length := by
  obtain ⟨c, text, htext⟩ := exists_cons_of_ne_nil hrest
  have hline : (s.rest.take 1023).takeWhile (!endsLine ·) =
      c :: (text.take 1022).takeWhile (!endsLine ·) := by
    simp [htext, h c (by simp [htext])]
  rw [ConfReading.turn, if_neg hrest, hline, if_neg (cons_ne_nil _ _)]
  constructor
  · -- what is left does not start with white space
    intro d hd
    have hspace := head?_dropWhile_not isSpace
      (s.rest.drop (c :: (text.take 1022).takeWhile (!endsLine ·)).length)
    rw [Option.mem_def.mp hd] at hspace
    by_contra hend
    have hcases : d = '\r' ∨ d = '\n' := by simpa [endsLine, or_iff_not_imp_left] using hend
    rcases hcases with rfl | rfl
    · cases hspace
    · cases hspace
  · refine (dropWhile_sublist _).length_le.trans_lt ?_
    rw [length_drop, htext, length_cons, length_cons]
    omega

theorem ConfReading.InLine.ends (h : s.InLine) {n : Nat} (hn : s.rest.length ≤ n) :
    (readConf i defaults (n + 2) s).isSome := by
  -- on the length of what is left
  induction n generalizing s with
  | zero =>
    rw [readConf]
    split
    · rfl
    · rw [readConf, if_pos (turn_of_nil (length_eq_zero_iff.mp (Nat.le_zero.mp hn)))]
      rfl
  | succ n ih =>
    rw [readConf]
    split
    · rfl
    · by_cases hrest : s.rest = []
      · rw [readConf, if_pos (turn_of_nil hrest)]
        rfl
      · obtain ⟨hturn, hlt⟩ := h.turn hrest i defaults
        exact ih hturn (by omega)

theorem readConf_of_turn_eq (heof : s.eof = false) (hturn : s.turn i defaults = s) (fuel : Nat) :
    readConf i defaults fuel s = none := by
  induction fuel with
  | zero => rfl
  | succ fuel ih => rw [readConf, heof, hturn, if_neg Bool.false_ne_true, ih]

/-- The loop ends if and only if the file does not start with the end of a line. -/
theorem readConf_ends_iff (i defaults : Bool) (text : Text) (conf : ConfTable) :
    (∃ fuel, (readConf i defaults fuel ⟨text, false, conf⟩).isSome) ↔
      ∀ c ∈ text.head?, endsLine c = false := by
  constructor
  · rintro ⟨fuel, hends⟩ c hc
    by_contra hend
    obtain ⟨rest, rfl⟩ := head?_eq_some_iff.mp hc
    rw [readConf_of_turn_eq rfl (by simp [ConfReading.turn, hend])] at hends
    cases hends
  · intro h
    exact ⟨_, @ConfReading.InLine.ends i defaults ⟨text, false, conf⟩ h _ le_rfl⟩

theorem readConf_newline :
    ¬ ∃ fuel, (readConf false false fuel ⟨"\na=b\n".toList, false, ⟨[], [], []⟩⟩).isSome := by
  rintro ⟨fuel, hends⟩
  rw [readConf_of_turn_eq rfl rfl] at hends
  cases hends

end DTLite
