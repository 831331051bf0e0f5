import Mathlib.Data.List.Basic

/-!
# Globs

Patterns with `*`, `?` and sets of characters in brackets, as `fnmatch` reads them: a star
matches any text, also one with separators, and a bracket that is not closed is a character.
-/

namespace AIpinho.Lib

/-- A part of a glob. -/
inductive GlobPart
  /-- `*`, any text. -/
  | star
  /-- `?`, any character. -/
  | any
  /-- A character. -/
  | char (c : Char)
  /-- A character in one of some ranges, or in none of them. -/
  | set (negated : Bool) (ranges : List (Char × Char))

/-- The ranges between brackets. A range whose end is before its start is empty. -/
def globRanges : List Char → List (Char × Char)
  | first :: '-' :: last :: rest => (first, last) :: globRanges rest
  | c :: rest => (c, c) :: globRanges rest
  | [] => []

/-- What is between an opening bracket and its closing one, and what is after it. A closing
bracket that comes first, or first after the mark of a negated set, is one of the characters. -/
def globBracket (pattern : List Char) : Option (Bool × List Char × List Char) :=
  let negated := pattern.head? = some '!'
  let body := if negated then pattern.tail else pattern
  let first := if body.head? = some ']' then [']'] else []
  let inner := (body.drop first.length).takeWhile (· ≠ ']')
  match body.drop (first.length + inner.length) with
  | _ :: rest => some (negated, first ++ inner, rest)
  | [] => none

def globPartsOf : ℕ → List Char → List GlobPart
  | 0, _ | _, [] => []
  | fuel + 1, '*' :: rest => .star :: globPartsOf fuel rest
  | fuel + 1, '?' :: rest => .any :: globPartsOf fuel rest
  | fuel + 1, '[' :: rest =>
    match globBracket rest with
    | some (negated, inner, rest) => .set negated (globRanges inner) :: globPartsOf fuel rest
    | none => .char '[' :: globPartsOf fuel rest
  | fuel + 1, c :: rest => .char c :: globPartsOf fuel rest

def globParts (pattern : String) : List GlobPart :=
  globPartsOf pattern.toList.length pattern.toList

def globMatches : List GlobPart → List Char → Bool
  | [], text => text.isEmpty
  | .star :: parts, text => text.tails.any (globMatches parts)
  | _ :: _, [] => false
  | .any :: parts, _ :: text => globMatches parts text
  | .char c :: parts, c' :: text => c == c' && globMatches parts text
  | .set negated ranges :: parts, c :: text =>
    ((ranges.any fun range => range.1 ≤ c && c ≤ range.2) != negated) && globMatches parts text

/-- `fnmatch` on a system whose names have one case. -/
def fnmatch (text pattern : String) : Bool := globMatches (globParts pattern) text.toList

example : (["a/b.pyc", ".pyc", "a.py"].map (fnmatch · "*.pyc"),
    ["a", "b", "z", "-", "]"].map (fnmatch · "[!]a-c-]")) =
    ([true, true, false], [false, false, true, false, false]) := by decide

end AIpinho.Lib
