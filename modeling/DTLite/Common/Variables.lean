import DTLite.Common.HistoryTable
import DTLite.Reasoning.Text

/-!
# Expanding the variables of a template

`dt_variables_expand` walks over a template such as `$(FILE_NAME)_$(TITLE-untitled)`.  Where it
would read past the end of the template or outside of a value it stops with a fault.
-/

namespace DTLite

open Reasoning

/-- The calls are not at their end, or a read past the template, outside of a value, or of a length
that no buffer has. -/
inductive ReadStop where
  | running
  | template
  | value
  | abort
deriving DecidableEq, Repr

/-- The values of the variables by their names, the job, the image's flags, and glib's changes of
case. -/
structure VariablesParams where
  values : Text → Text
  -- `!g_strcmp0(params->jobcode, "infos")`
  infos : Bool
  -- `params->data->flags & DT_IMAGE_HAS_TXT`
  hasTxt : Bool
  unicharToupper : Char → Char
  unicharTolower : Char → Char
  utf8Strup : Text → Text
  utf8Strdown : Text → Text

inductive NameRule where
  | plain
  | infos
  | infosTxt
  | sequence
  | category
deriving DecidableEq, Repr

-- The tests of `get_base_value`, in their order.
def variableNames : List (List Text × NameRule) :=
  [(["YEAR".toList], .plain), (["MONTH".toList], .plain), (["DAY".toList], .plain),
    (["HOUR".toList], .plain), (["MINUTE".toList], .plain), (["SECOND".toList], .plain),
    (["EXIF_YEAR".toList], .plain), (["EXIF_MONTH".toList], .plain),
    (["EXIF_DAY".toList], .plain), (["EXIF_HOUR".toList], .plain),
    (["EXIF_MINUTE".toList], .plain), (["EXIF_SECOND".toList], .plain),
    (["EXIF_ISO".toList], .plain), (["NL".toList], .infos),
    (["EXIF_EXPOSURE_BIAS".toList], .plain), (["EXIF_EXPOSURE".toList], .plain),
    (["EXIF_APERTURE".toList], .plain), (["EXIF_FOCAL_LENGTH".toList], .plain),
    (["EXIF_FOCUS_DISTANCE".toList], .plain), (["MAKER".toList], .plain),
    (["MODEL".toList], .plain), (["LENS".toList], .plain), (["ID".toList], .plain),
    (["VERSION_NAME".toList], .plain), (["VERSION_IF_MULTI".toList], .plain),
    (["VERSION".toList], .plain), (["JOBCODE".toList], .plain), (["ROLL_NAME".toList], .plain),
    (["FILE_DIRECTORY".toList], .plain), (["FILE_FOLDER".toList], .plain),
    (["FILE_NAME".toList], .plain), (["FILE_EXTENSION".toList], .plain),
    (["SEQUENCE".toList], .sequence), (["USERNAME".toList], .plain),
    (["HOME_FOLDER".toList], .plain), (["HOME".toList], .plain),
    (["PICTURES_FOLDER".toList], .plain), (["DESKTOP_FOLDER".toList], .plain),
    (["DESKTOP".toList], .plain), (["STARS".toList], .plain), (["RATING_ICONS".toList], .plain),
    (["LABELS_ICONS".toList, "LABELS_COLORICONS".toList], .infos), (["LABELS".toList], .plain),
    (["TITLE".toList], .plain), (["DESCRIPTION".toList], .plain), (["CREATOR".toList], .plain),
    (["PUBLISHER".toList], .plain), (["RIGHTS".toList], .plain), (["MAX_WIDTH".toList], .plain),
    (["MAX_HEIGHT".toList], .plain), (["CATEGORY".toList], .category), (["TAGS".toList], .plain),
    (["SIDECAR_TXT".toList], .infosTxt)]

section Expand

variable (params : VariablesParams)

-- "CATEGORY should be followed by n [0,9] and (category)".
def categoryValue (name : Text) : Text → Text × Text
  | d :: '(' :: t =>
      if d.isDigit then
        match t.dropWhile (· ≠ ')') with
        | ')' :: rest =>
            (params.values (name ++ d :: '(' :: t.takeWhile (· ≠ ')') ++ [')']), rest)
        | _ => ([], '(' :: t)
      else ([], d :: '(' :: t)
  | d :: t => if d.isDigit then ([], t) else ([], d :: t)
  | [] => ([], [])

-- The value and what follows the name. A test that fails after its name has matched goes on behind
-- the name.
def baseValueFrom : List (List Text × NameRule) → Text → Text × Text
  | [], t => ([], t.dropWhile Char.isAlpha)
  | (names, rule) :: table, t =>
      match names.find? (·.isPrefixOf t) with
      | none => baseValueFrom table t
      | some name =>
          let rest := t.drop name.length
          match rule with
          | .plain => (params.values name, rest)
          | .infos => if params.infos then (params.values name, rest) else baseValueFrom table rest
          | .infosTxt =>
              if params.infos ∧ params.hasTxt then (params.values name, rest)
              else baseValueFrom table rest
          | .sequence =>
              match rest with
              | d :: t =>
                  if d.isDigit then (params.values (name ++ [d]), t)
                  else (params.values name, d :: t)
              | [] => (params.values name, [])
          | .category => categoryValue params name rest

def getBaseValue (t : Text) : Text × Text := baseValueFrom params variableNames t

/-! ## The operations -/

-- `strlen`
def byteLength (t : Text) : Nat := t.foldr (fun c n => c.utf8Size + n) 0

-- `strtol(…, …, 10)`, with the number of a text that has none.
def readLong (t : Text) : Int × Text := (strtol t).getD (0, t)

-- `const int length = strtol(…)`, which is a `long` first.
def longToInt (x : Int) : Int :=
  (max (-9223372036854775808) (min x 9223372036854775807)).bmod 4294967296

-- "find where to start"
def substringStart (length : Nat) (offset : Int) : Nat :=
  if 0 ≤ offset then min offset.toNat length else length - min (-offset).toNat length

-- `$(parameter:offset:length)`
def substring (base t : Text) : Except ReadStop (Text × Text) :=
  let offset := readLong t
  let start := substringStart base.length offset.1
  match offset.2 with
  | ':' :: t =>
      let length := longToInt (readLong t).1
      if 0 ≤ length then .ok ((base.drop start).take length.toNat, (readLong t).2)
      else if start < base.length then
        .ok ((base.drop start).take (base.length - start - (-length).toNat), (readLong t).2)
      -- `-start_utf8_length` is 0 as a `size_t`, and the end is before the start
      else .error (if (-length).toNat ≤ base.length then .abort else .value)
  | t => .ok (base.drop start, t)

-- `g_strstr_len` from the position `k` on.
def strstrFrom (haystack needle : Text) (k : Nat) : Option Nat :=
  (List.range' k (haystack.length - k)).find? fun i => needle.isPrefixOf (haystack.drop i)

theorem mem_range_of_strstrFrom {haystack needle : Text} {k s : Nat}
    (h : strstrFrom haystack needle k = some s) : k ≤ s ∧ s < haystack.length := by
  have hmem := List.mem_range'_1.mp (List.mem_of_find?_eq_some h)
  omega

-- The loop of `dt_util_str_occurence`, with the next search from `k` on.
def occurenceLoop (haystack needle : Text) (k : Nat) : Nat :=
  match h : strstrFrom haystack needle k with
  | none => 0
  | some p => occurenceLoop haystack needle (p + 1) + 1
termination_by haystack.length - k
decreasing_by
  have := mem_range_of_strstrFrom h
  omega

def dtUtilStrOccurence (haystack needle : Text) : Nat := occurenceLoop haystack needle 0

-- The loop of `dt_util_str_replace`, with `p` and the next search from `k` on.
def replaceLoop (base pattern substitute : Text) (p k : Nat) : Except ReadStop Text :=
  match _h : strstrFrom base pattern k with
  | none => .ok (base.drop p)
  | some s =>
      -- `memcpy(np, p, s - p)`
      if s < p then .error .value
      else (replaceLoop base pattern substitute (s + pattern.length) (s + 1)).map fun t =>
        (base.drop p).take (s - p) ++ substitute ++ t
termination_by base.length - k
decreasing_by
  have := mem_range_of_strstrFrom ‹strstrFrom base pattern k = some s›
  omega

/-- The search for an empty pattern runs past the end of the value. -/
def dtUtilStrReplace (base pattern substitute : Text) : Except ReadStop Text :=
  if pattern = [] then .error .value
  else if dtUtilStrOccurence base pattern = 0 then .ok base
  else replaceLoop base pattern substitute 0 0

-- `strncmp(base_value + base_value_length - pattern_length, pattern, pattern_length)`
def cutEnd (base pattern : Text) : Except ReadStop (Option Text) :=
  if byteLength base < byteLength pattern then .error .value
  else .ok (if pattern.isSuffixOf base then some (base.take (base.length - pattern.length))
    else none)

-- `$(parameter/mode pattern/replacement)`
def replaceBy (mode : Option Char) (base pattern replacement : Text) : Except ReadStop Text :=
  match mode with
  | some '/' => dtUtilStrReplace base pattern replacement
  | some '#' =>
      .ok (if pattern.isPrefixOf base then replacement ++ base.drop pattern.length else base)
  | some '%' => (cutEnd base pattern).map fun cut => (cut.map (· ++ replacement)).getD base
  | _ =>
      .ok (match (List.range (base.length + 1)).find? fun k => pattern.isPrefixOf (base.drop k) with
        | some k =>
            -- `*found = '\0'` comes before the copy of what follows the pattern
            base.take k ++ replacement ++
              if pattern = [] then [] else base.drop (k + pattern.length)
        | none => base)

-- `^` and `,`, which stand twice for the whole value.
def changeCase (operation : Char) (first : Char → Char) (all : Text → Text) (base t : Text) :
    Except ReadStop (Text × Text) :=
  if t.head? = some operation then .ok (all base, t.tail)
  else
    match base with
    -- `g_utf8_next_char` steps over the end of the value
    | [] => .error .value
    | c :: base => .ok (first c :: base, t)

-- Past the second character of `//`, `/#` and `/%`.
def skipMode (t : Text) : Text :=
  if t.head? = some '/' ∨ t.head? = some '#' ∨ t.head? = some '%' then t.tail else t

variable (exp : Option Char → Text → Except ReadStop (Text × Text))

-- `case '/'`
def replaceOperation (base t : Text) : Except ReadStop (Text × Text) := do
  let pattern ← exp (some '/') (skipMode t)
  match pattern.2 with
  -- `(*variable)++` steps over the end of the template
  | [] => .error .template
  | _ :: rest =>
      let replacement ← exp (some ')') rest
      let value ← replaceBy t.head? base pattern.1 replacement.1
      return (value, replacement.2)

-- `switch(operation)`
def applyOperation (operation : Char) (base t : Text) : Except ReadStop (Text × Text) :=
  match operation with
  | '-' => do
      let replacement ← exp (some ')') t
      return (if base = [] then replacement.1 else base, replacement.2)
  | '+' => do
      let replacement ← exp (some ')') t
      return (if base = [] then base else replacement.1, replacement.2)
  | ':' => substring base t
  | '#' => do
      let pattern ← exp (some ')') t
      return (if pattern.1.isPrefixOf base then base.drop pattern.1.length else base, pattern.2)
  | '%' => do
      let pattern ← exp (some ')') t
      let cut ← cutEnd base pattern.1
      return (cut.getD base, pattern.2)
  | '/' => replaceOperation exp base t
  | '^' => changeCase '^' params.unicharToupper params.utf8Strup base t
  | ',' => changeCase ',' params.unicharTolower params.utf8Strdown base t
  | _ => .ok (base, t)

-- `**variable == ')'`, or the error case.
def closeVariable (value t : Text) : Option Text × Text :=
  match t with
  | ')' :: t => (some value, t)
  | t => (none, t)

/-- From behind the `$(` on. -/
def variableGetValue (t : Text) : Except ReadStop (Option Text × Text) :=
  let base := getBaseValue params t
  match base.2 with
  | [] => .ok (none, [])
  | ')' :: t => .ok (some base.1, t)
  | operation :: t =>
      if operation.utf8Size = 1 then do
        let value ← applyOperation params exp operation base.1 t
        return closeVariable value.1 value.2
      -- `(*variable)++` is one byte, and the next byte of the character is no `)`
      else .ok (none, t)

-- "find start of variable, copying over everything till then"
def copyText (stop : Option Char) : Text → Text × Text
  | [] => ([], [])
  | c :: t =>
      if stop = some c then ([], c :: t)
      else
        match c, t with
        | '\\', d :: t => (d :: (copyText stop t).1, (copyText stop t).2)
        | '$', '(' :: t => ([], '$' :: '(' :: t)
        | c, t => (c :: (copyText stop t).1, (copyText stop t).2)

/-- With the text and where it stopped in the source. -/
def expand : Nat → Option Char → Text → Except ReadStop (Text × Text)
  | 0, _, _ => .error .running
  | n + 1, stop, t =>
      let copied := copyText stop t
      match copied.2 with
      | '$' :: '(' :: t => do
          let value ← variableGetValue params (expand n) t
          match value.1 with
          | some replacement =>
              let rest ← expand n stop value.2
              return (copied.1 ++ replacement ++ rest.1, rest.2)
          | none =>
              -- "the error case of missing closing ')' -- try to recover"
              let rest ← expand n stop ('(' :: t)
              return (copied.1 ++ '$' :: rest.1, rest.2)
      | rest => .ok (copied.1, rest)

def dtVariablesExpand (source : Text) : Except ReadStop Text :=
  (expand params (source.length + 1) none source).map Prod.fst

end Expand

end DTLite
