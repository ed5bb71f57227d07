import TextAnalysis.CharMap
import TextAnalysis.Failure
import TextAnalysis.Text.Words

/-!
# Character tables

The written form of a character map: entries separated by commas and line breaks, with comments
from a number sign to the end of the line. An entry is a character or a range of characters, each of
which maps to itself; a range and, behind an arrow, the range of equal length that it maps to; or a
range followed by `/2`, whose characters pair up and map to the second of their pair. A character is
written as itself or by its code point. Characters that no entry lists are breaks.

`CharMap.ofTable` answers the map of a table, or what is wrong with its first faulty entry.
-/

set_option autoImplicit false

namespace TextAnalysis.CharMap

open Text (trim)

/-- The texts before and after the first occurrence of two characters. -/
def splitAtPair? (a b : Char) : List Char → Option (List Char × List Char)
  | c :: d :: rest =>
    if c = a && d = b then some ([], rest)
    else (splitAtPair? a b (d :: rest)).map fun parts => (c :: parts.1, parts.2)
  | _ => none

/-- The entries of a table. -/
def tableEntries (table : List Char) : List (List Char) :=
  ((((table.splitOn '\n').map fun line => line.takeWhile (· ≠ '#')).flatMap (List.splitOn ',')).map
    trim).filter fun entry => !entry.isEmpty

/-- The value of a hexadecimal digit. -/
def hexDigit? (c : Char) : Option Nat :=
  if '0' ≤ c && c ≤ '9' then some (c.toNat - 48)
  else if 'A' ≤ c && c ≤ 'F' then some (c.toNat - 55)
  else if 'a' ≤ c && c ≤ 'f' then some (c.toNat - 87)
  else none

/-- The value of hexadecimal digits that follow a value, as long as it fits into 32 bits. -/
def hexValue (value : Nat) : List Char → Except NumeralFault Nat
  | [] => .ok value
  | c :: rest =>
    match hexDigit? c with
    | none => .error .badDigit
    | some d => if 16 * value + d < 4294967296 then hexValue (16 * value + d) rest
      else .error .tooLarge

/-- Reads a hexadecimal numeral of 32 bits, which may have a plus sign. -/
def readHexNumeral : List Char → Except NumeralFault Nat
  | [] => .error .empty
  | ['+'] => .error .badDigit
  | '+' :: digits => hexValue 0 digits
  | digits => hexValue 0 digits

/-- What follows the sign of a code point. -/
def afterSign? : List Char → Option (List Char)
  | 'U' :: '+' :: digits => some digits
  | 'u' :: '+' :: digits => some digits
  | _ => none

/-- Reads a character of a table, as its code point. -/
def readCode (entry item : List Char) : Except TableFault Nat :=
  match afterSign? item with
  | some digits =>
    match readHexNumeral digits with
    | .ok code => .ok code
    | .error cause => .error (.badCodePoint (String.ofList item) (String.ofList entry) cause)
  | none =>
    match item with
    | [c] => .ok c.toNat
    | _ => .error (.noCharacter (String.ofList item) (String.ofList entry))

/-- Reads a character or a range, as the first and last code point. -/
def readRange (entry item : List Char) : Except TableFault (Nat × Nat) := do
  let (first, last) ←
    match splitAtPair? '.' '.' item with
    | some (first, last) => do
      let first ← readCode entry (trim first)
      let last ← readCode entry (trim last)
      pure (first, last)
    | none => do
      let code ← readCode entry item
      pure (code, code)
  if last < first then .error (.reversedRange (String.ofList entry)) else .ok (first, last)

/-- The character with a code point. -/
def charOfCode (entry : List Char) (code : Nat) : Except TableFault Char :=
  if code.isValidChar then .ok (Char.ofNat code)
  else .error (.invalidCharacter code (String.ofList entry))

/-- Lists `count` characters from a code point on, each mapped to the character at the same place
of the range that starts at `image`. -/
def listRange (entry : List Char) (table : Std.ExtTreeMap Char String) (first image : Nat) :
    Nat → Except TableFault (Std.ExtTreeMap Char String)
  | 0 => .ok table
  | count + 1 =>
    match charOfCode entry first with
    | .error fault => .error fault
    | .ok c =>
      match charOfCode entry image with
      | .error fault => .error fault
      | .ok d => listRange entry (table.insert c d.toString) (first + 1) (image + 1) count

/-- Lists `count` pairs of characters from a code point on, both mapped to the second of the
pair. -/
def listPairs (entry : List Char) (table : Std.ExtTreeMap Char String) (first : Nat) :
    Nat → Except TableFault (Std.ExtTreeMap Char String)
  | 0 => .ok table
  | count + 1 =>
    match charOfCode entry (first + 1) with
    | .error fault => .error fault
    | .ok d =>
      match charOfCode entry first with
      | .error fault => .error fault
      | .ok c =>
        listPairs entry ((table.insert c d.toString).insert d d.toString) (first + 2) count

/-- The text before a final `/2`. -/
def beforeHalving? (entry : List Char) : Option (List Char) :=
  match entry.reverse with
  | '2' :: '/' :: rest => some rest.reverse
  | _ => none

/-- Adds what an entry lists to a table. -/
def readEntry (table : Std.ExtTreeMap Char String) (entry : List Char) :
    Except TableFault (Std.ExtTreeMap Char String) :=
  match splitAtPair? '-' '>' entry with
  | some (source, target) => do
    let (first, last) ← readRange entry (trim source)
    let (image, imageLast) ← readRange entry (trim target)
    if last - first = imageLast - image then listRange entry table first image (last - first + 1)
    else .error (.unequalRanges (String.ofList entry))
  | none =>
    match beforeHalving? entry with
    | some range => do
      let (first, last) ← readRange entry (trim range)
      listPairs entry table first ((last - first + 1) / 2)
    | none => do
      let (first, last) ← readRange entry entry
      listRange entry table first first (last - first + 1)

/-- Reads a character table. -/
def ofTable (table : String) : Except TableFault CharMap := do
  let listed ← (tableEntries table.toList).foldlM readEntry ∅
  return { table := listed, unmapped := .split }

end TextAnalysis.CharMap
