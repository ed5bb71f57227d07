import TextAnalysis.Unicode.Letters

/-!
# Quoted text

The quoted form of a text or character, as it stands in error messages and in descriptions of
pipelines: between quotes, with the quote itself, the backslash, control characters, combining
marks and every other character that does not print by itself written as an escape.
-/

set_option autoImplicit false

namespace TextAnalysis.Text.Quoted

/-- A code point as an escape, in lower-case hexadecimal digits without leading zeros. -/
def escapeCode (c : Char) : List Char :=
  '\\' :: 'u' :: '\x7b' :: (Nat.toDigits 16 c.toNat ++ ['\x7d'])

/-- One character inside quotes of the given kind. -/
def escapeChar (quote : Char) (c : Char) : List Char :=
  if c = '\x00' then ['\\', '0']
  else if c = '\t' then ['\\', 't']
  else if c = '\r' then ['\\', 'r']
  else if c = '\n' then ['\\', 'n']
  else if c = '\\' then ['\\', '\\']
  else if c = quote then ['\\', quote]
  else if Unicode.isExtender c || !Unicode.isPrintable c then escapeCode c
  else [c]

/-- A text in double quotes. -/
def quote (s : String) : String :=
  String.ofList ('"' :: (s.toList.flatMap (escapeChar '"') ++ ['"']))

/-- A character in single quotes. -/
def quoteChar (c : Char) : String :=
  String.ofList ('\'' :: (escapeChar '\'' c ++ ['\'']))

end TextAnalysis.Text.Quoted
