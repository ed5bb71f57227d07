import TextAnalysis.Text.Quoted

/-!
# Descriptions of values

The shapes in which values are described for diagnosis: records with named fields, values with one
unnamed part, lists, sets and maps.
-/

set_option autoImplicit false

namespace TextAnalysis.Text.Described

/-- A record with its fields in order. -/
def record (name : String) (fields : List (String × String)) : String :=
  match fields with
  | [] => name
  | _ =>
    name ++ " \x7b " ++ String.intercalate ", " (fields.map fun f => f.1 ++ ": " ++ f.2) ++ " \x7d"

/-- A value with one part. -/
def wrapped (name : String) (part : String) : String := name ++ "(" ++ part ++ ")"

/-- A value that may be missing. -/
def optional (value : Option String) : String :=
  match value with
  | some v => wrapped "Some" v
  | none => "None"

/-- A list in brackets. -/
def list (items : List String) : String := "[" ++ String.intercalate ", " items ++ "]"

/-- A set in braces. -/
def set (items : List String) : String := "\x7b" ++ String.intercalate ", " items ++ "\x7d"

/-- A map in braces. -/
def map (entries : List (String × String)) : String :=
  set (entries.map fun e => e.1 ++ ": " ++ e.2)

/-- A truth value. -/
def truth (b : Bool) : String := if b then "true" else "false"

/-- A count. -/
def count (n : Nat) : String := String.ofList (Nat.toDigits 10 n)

end TextAnalysis.Text.Described
