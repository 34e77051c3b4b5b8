import EntityConventions.Decimal.Digits
import EntityConventions.Path

/-! # Glob patterns

A pattern is compiled into a list of tokens by `Glob.compile`: `?` is any character, `*` any
sequence, `**` as a whole part of a path any number of parts, `[…]` one of some characters and
`[!…]` one of all others.  A pattern that does not compile is refused with the position of its
fault, counted in characters. -/

namespace EntityConventions.Glob

open Decimal

/-- A member of a set of characters: all those between two bounds. -/
structure CharRange where
  low : Char
  high : Char
  deriving DecidableEq, Repr

/-- One step of a pattern. -/
inductive Token where
  | char (c : Char)
  | anyChar
  | anySequence
  | anyParts
  | within (set : List CharRange)
  | except (set : List CharRange)
  deriving DecidableEq, Repr

/-! ### Faults -/

/-- What is wrong with a pattern. -/
inductive Cause where
  | wildcards
  | parts
  | range
  deriving DecidableEq, Repr

/-- A fault of a pattern and its position. -/
structure Fault where
  position : Nat
  cause : Cause
  deriving DecidableEq, Repr

/-- The words for what is wrong. -/
def Cause.message : Cause → String
  | .wildcards => "wildcards are either regular `*` or recursive `**`"
  | .parts => "recursive wildcards must form a single path component"
  | .range => "invalid range pattern"

/-- The words for a fault. -/
def Fault.message (f : Fault) : String :=
  "Pattern syntax error near position " ++ Digits.natText f.position ++ ": " ++ f.cause.message

/-! ### Compiling -/

/-- The members of a set: ranges are written with a hyphen between their bounds, and any other
character stands for itself. -/
def members : List Char → List CharRange
  | a :: '-' :: b :: rest => ⟨a, b⟩ :: members rest
  | a :: rest => ⟨a, a⟩ :: members rest
  | [] => []

/-- A set of characters, read behind its opening bracket: its token, and the characters behind
the closing bracket.  The first member of a set may be a closing bracket. -/
def set? : List Char → Option (Token × List Char)
  | '!' :: first :: rest =>
      if rest.contains ']' then
        some (.except (members (first :: rest.takeWhile (· != ']'))),
          (rest.dropWhile (· != ']')).drop 1)
      else none
  | '!' :: [] => none
  | first :: rest =>
      if rest.contains ']' then
        some (.within (members (first :: rest.takeWhile (· != ']'))),
          (rest.dropWhile (· != ']')).drop 1)
      else none
  | [] => none

/-- The tokens of the characters ahead, which start at `position` behind the character
`before`. -/
def tokens : Nat → Nat → Option Char → List Char → Except Fault (List Token)
  | 0, _, _, _ => .ok []
  | _ + 1, _, _, [] => .ok []
  | fuel + 1, position, before, '*' :: rest =>
      match rest with
      | '*' :: '*' :: _ => .error ⟨position + 2, .wildcards⟩
      | '*' :: rest =>
          if before = none ∨ before = some '/' then
            match rest with
            | [] => .ok [.anyParts]
            | '/' :: rest => do
                let more ← tokens fuel (position + 3) (some '/') rest
                return .anyParts :: more
            | _ => .error ⟨position + 2, .parts⟩
          else .error ⟨position - 1, .parts⟩
      | rest => do
          let more ← tokens fuel (position + 1) (some '*') rest
          return .anySequence :: more
  | fuel + 1, position, _, '?' :: rest => do
      let more ← tokens fuel (position + 1) (some '?') rest
      return .anyChar :: more
  | fuel + 1, position, _, '[' :: rest =>
      match set? rest with
      | none => .error ⟨position, .range⟩
      | some (token, behind) => do
          let more ← tokens fuel (position + 1 + (rest.length - behind.length)) (some ']') behind
          return token :: more
  | fuel + 1, position, _, c :: rest => do
      let more ← tokens fuel (position + 1) (some c) rest
      return .char c :: more

/-- The tokens of a pattern. -/
def compile (pattern : String) : Except Fault (List Token) :=
  tokens (pattern.toList.length + 1) 0 none pattern.toList

end EntityConventions.Glob
