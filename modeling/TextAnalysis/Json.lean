import TextAnalysis.Number.Decimal

/-!
# JSON values

Values of the JSON data format, and their written forms: on one line, or indented over several.
Members of an object keep their order.
-/

set_option autoImplicit false

namespace TextAnalysis

/-- A JSON value. -/
inductive Json where
  | null
  | bool (b : Bool)
  | integer (negative : Bool) (n : Nat)
  | decimal (negative : Bool) (d : Decimal)
  | string (s : String)
  | array (items : List Json)
  | object (members : List (String × Json))
  deriving Inhabited

namespace Json

/-- A count. -/
def count (n : Nat) : Json := .integer false n

/-- A value that may be missing. -/
def optional {α : Type} (write : α → Json) : Option α → Json
  | some a => write a
  | none => null

/-- The four hexadecimal digits of a control character. -/
def controlDigits (c : Char) : List Char :=
  let digits := Nat.toDigits 16 c.toNat
  List.replicate (4 - digits.length) '0' ++ digits

/-- One character inside quotes. -/
def escapeChar (c : Char) : List Char :=
  if c = '"' then ['\\', '"']
  else if c = '\\' then ['\\', '\\']
  else if c = '\x08' then ['\\', 'b']
  else if c = '\x0c' then ['\\', 'f']
  else if c = '\n' then ['\\', 'n']
  else if c = '\r' then ['\\', 'r']
  else if c = '\t' then ['\\', 't']
  else if c.toNat < 0x20 then '\\' :: 'u' :: controlDigits c
  else [c]

/-- A text in quotes. -/
def quote (s : String) : String :=
  String.ofList ('"' :: (s.toList.flatMap escapeChar ++ ['"']))

/-- A decimal: positional as long as its point stands no more than five places to the left of its
digits and no more than thirteen to the right of their start. -/
def writeDecimal (negative : Bool) (d : Decimal) : String :=
  let sign := if negative then "-" else ""
  if d.digits = 0 then sign ++ "0.0"
  else sign ++ (if -6 < d.point && d.point < 14 then d.positional else d.scientific)

/-- A value without parts. -/
def writeScalar : Json → String
  | null => "null"
  | bool b => if b then "true" else "false"
  | integer negative n =>
    (if negative then "-" else "") ++ String.ofList (Nat.toDigits 10 n)
  | decimal negative d => writeDecimal negative d
  | string s => quote s
  | array _ => "[]"
  | object _ => "\x7b\x7d"

mutual

/-- A value on one line, without blanks. -/
def compact : Json → String
  | .array items => "[" ++ String.intercalate "," (compactItems items) ++ "]"
  | .object members => "\x7b" ++ String.intercalate "," (compactMembers members) ++ "\x7d"
  | scalar => writeScalar scalar

/-- The items of an array. -/
def compactItems : List Json → List String
  | [] => []
  | j :: rest => compact j :: compactItems rest

/-- The members of an object. -/
def compactMembers : List (String × Json) → List String
  | [] => []
  | (key, j) :: rest => (quote key ++ ":" ++ compact j) :: compactMembers rest

end

/-- A new line with the indentation of a depth. -/
def newLine (depth : Nat) : String := "\n" ++ String.ofList (List.replicate (2 * depth) ' ')

/-- Parts on lines of their own, between brackets; brackets alone where there is no part. -/
def block (depth : Nat) (opening closing : String) (parts : List String) : String :=
  if parts.isEmpty then opening ++ closing
  else
    opening ++ newLine (depth + 1) ++ String.intercalate ("," ++ newLine (depth + 1)) parts ++
      newLine depth ++ closing

mutual

/-- A value over several lines, at an indentation depth. -/
def prettyAt (depth : Nat) : Json → String
  | .array items => block depth "[" "]" (prettyItems (depth + 1) items)
  | .object members => block depth "\x7b" "\x7d" (prettyMembers (depth + 1) members)
  | scalar => writeScalar scalar

/-- The items of an array. -/
def prettyItems (depth : Nat) : List Json → List String
  | [] => []
  | j :: rest => prettyAt depth j :: prettyItems depth rest

/-- The members of an object. -/
def prettyMembers (depth : Nat) : List (String × Json) → List String
  | [] => []
  | (key, j) :: rest => (quote key ++ ": " ++ prettyAt depth j) :: prettyMembers depth rest

end

/-- A value over several lines. -/
def pretty (j : Json) : String := prettyAt 0 j

end Json

end TextAnalysis
