import Mathlib.Data.List.Basic

/-! File name patterns as `glob` reads them: `?`, `*`, bracket sets and the backslash, matched
against a whole path. A wildcard never stands for a `/`, nor for the dot a component begins with. -/

namespace DTLite.Reasoning

inductive GlobToken where
  | lit (c : Char)
  | any
  | star
  | set (negated : Bool) (ranges : List (Char × Char))
  deriving DecidableEq, Repr

-- The ranges of a set and what follows its `]`. A `]` at the start is a member; a `/` or the end
-- leaves no set.
def parseSet : Bool → List Char → Option (List (Char × Char) × List Char)
  | _, [] => none
  | _, '/' :: _ => none
  | false, ']' :: rest => some ([], rest)
  | _, '\\' :: c :: rest => (parseSet false rest).map fun r => ((c, c) :: r.1, r.2)
  | _, a :: '-' :: b :: rest =>
    if b = ']' then some ([(a, a), ('-', '-')], rest)
    else (parseSet false rest).map fun r => ((a, b) :: r.1, r.2)
  | _, a :: rest => (parseSet false rest).map fun r => ((a, a) :: r.1, r.2)

def parseBracket : List Char → Option (GlobToken × List Char)
  | '!' :: rest => (parseSet true rest).map fun r => (.set true r.1, r.2)
  | '^' :: rest => (parseSet true rest).map fun r => (.set true r.1, r.2)
  | rest => (parseSet true rest).map fun r => (.set false r.1, r.2)

-- The fuel is the length of the pattern: every token takes at least one character.
def parseGlob : Nat → List Char → List GlobToken
  | 0, _ => []
  | _, [] => []
  | fuel + 1, '?' :: rest => .any :: parseGlob fuel rest
  | fuel + 1, '*' :: rest => .star :: parseGlob fuel rest
  | fuel + 1, '\\' :: c :: rest => .lit c :: parseGlob fuel rest
  | fuel + 1, '[' :: rest =>
    match parseBracket rest with
    | some (token, rest') => token :: parseGlob fuel rest'
    | none => .lit '[' :: parseGlob fuel rest
  | fuel + 1, c :: rest => .lit c :: parseGlob fuel rest

def inRanges (ranges : List (Char × Char)) (c : Char) : Bool :=
  ranges.any fun r => decide (r.1 ≤ c ∧ c ≤ r.2)

-- `start` says that a component of the path begins here.
def wildcardTakes (start : Bool) (c : Char) : Bool :=
  c ≠ '/' && !(start && c = '.')

def starMatch (rest : List Char → Bool) : List Char → Bool
  | [] => rest []
  | c :: cs => rest (c :: cs) || (c ≠ '/' && starMatch rest cs)

def matchTokens : List GlobToken → Bool → List Char → Bool
  | [], _, cs => cs.isEmpty
  | .lit a :: ts, _, c :: cs => a = c && matchTokens ts (a = '/') cs
  | .any :: ts, start, c :: cs => wildcardTakes start c && matchTokens ts false cs
  | .set negated ranges :: ts, start, c :: cs =>
    wildcardTakes start c && (inRanges ranges c != negated) && matchTokens ts false cs
  | .star :: ts, start, cs =>
    !(start && cs.head? = some '.') && starMatch (matchTokens ts false) cs
  | _ :: _, _, [] => false

def globMatch (pattern path : List Char) : Bool :=
  matchTokens (parseGlob pattern.length pattern) true path

example : globMatch "/p/IMG_[0-9][0-9].cr2.xmp".toList "/p/IMG_01.cr2.xmp".toList = true := by
  decide

example : globMatch "/p/IMG*.xmp".toList "/p/IMG/a.xmp".toList = false := by decide

end DTLite.Reasoning
