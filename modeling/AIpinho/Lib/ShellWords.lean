import Mathlib.Data.List.Basic

/-!
# Words of a command line

A command line is split into words at its blanks. In the plain reading a quoted word keeps its
quotes; in the POSIX reading the quotes go, also inside of a word, and a backslash takes the
next character as it is.
-/

namespace AIpinho.Lib

def isBlank (c : Char) : Bool := c == ' ' || c == '\t' || c == '\r' || c == '\n'

def isQuote (c : Char) : Bool := c == '\'' || c == '"'

/-- Where the plain reading is. -/
inductive PlainPlace
  | between
  | word (read : List Char)
  | quoted (quote : Char) (read : List Char)

def plainWords : PlainPlace → List Char → Option (List (List Char))
  | .between, [] => some []
  | .between, c :: text =>
    if isBlank c then plainWords .between text
    else if isQuote c then plainWords (.quoted c [c]) text
    else plainWords (.word [c]) text
  | .word read, [] => some [read]
  | .word read, c :: text =>
    if isBlank c then (plainWords .between text).map (read :: ·)
    else plainWords (.word (read ++ [c])) text
  | .quoted _ _, [] => none
  | .quoted quote read, c :: text =>
    if c = quote then (plainWords .between text).map ((read ++ [c]) :: ·)
    else plainWords (.quoted quote (read ++ [c])) text

/-- Where the POSIX reading is. -/
inductive PosixPlace
  | between
  | word (read : List Char)
  | quoted (quote : Char) (read : List Char)
  | escaped (quote : Option Char) (read : List Char)

def posixWords : PosixPlace → List Char → Option (List (List Char))
  | .between, [] => some []
  | .between, c :: text =>
    if isBlank c then posixWords .between text
    else if c = '\\' then posixWords (.escaped none []) text
    else if isQuote c then posixWords (.quoted c []) text
    else posixWords (.word [c]) text
  | .word read, [] => some [read]
  | .word read, c :: text =>
    if isBlank c then (posixWords .between text).map (read :: ·)
    else if isQuote c then posixWords (.quoted c read) text
    else if c = '\\' then posixWords (.escaped none read) text
    else posixWords (.word (read ++ [c])) text
  | .quoted _ _, [] => none
  | .quoted quote read, c :: text =>
    if c = quote then posixWords (.word read) text
    else if c = '\\' ∧ quote = '"' then posixWords (.escaped (some quote) read) text
    else posixWords (.quoted quote (read ++ [c])) text
  | .escaped _ _, [] => none
  | .escaped none read, c :: text => posixWords (.word (read ++ [c])) text
  | .escaped (some quote) read, c :: text =>
    if c = '\\' ∨ c = quote then posixWords (.quoted quote (read ++ [c])) text
    else posixWords (.quoted quote (read ++ ['\\', c])) text

/-- `shlex.split`. -/
def shellWords (posix : Bool) (text : String) : Option (List String) :=
  (if posix then posixWords .between text.toList else plainWords .between text.toList).map
    (·.map String.ofList)

end AIpinho.Lib
