/-!
# Fields of a table

Tables of characters and words are kept as texts whose entries stand between blanks and line ends.
-/

set_option autoImplicit false

namespace TextAnalysis.Text

/-- The entries of the rest of a table. `entry` is the one being read, last character first. -/
def fieldsFrom (entry : List Char) : List Char → List String
  | [] => if entry.isEmpty then [] else [String.ofList entry.reverse]
  | c :: rest =>
    if c = ' ' || c = '\n' then
      if entry.isEmpty then fieldsFrom [] rest
      else String.ofList entry.reverse :: fieldsFrom [] rest
    else fieldsFrom (c :: entry) rest

/-- The entries of a table. -/
def fields (table : String) : List String := fieldsFrom [] table.toList

end TextAnalysis.Text
