import TextAnalysis.Pattern.CharSet

/-!
# Names of character classes

The classes that a pattern may name: general categories, scripts and a few other properties of
Unicode, and the bracketed names of ASCII classes. Names of Unicode properties are compared without
regard to case, blanks, dashes, underscores and a leading "is".
-/

set_option autoImplicit false

namespace TextAnalysis.Pattern

open TextAnalysis.Unicode (Category Script)

namespace Property

/-- The form in which names of properties are compared. -/
def normalized (name : String) : String :=
  let kept := (name.toList.filter fun c => c ≠ ' ' && c ≠ '_' && c ≠ '-' && Unicode.isAscii c).map
    Unicode.lowercaseAscii
  match name.toList.map Unicode.lowercaseAscii, kept with
  | 'i' :: 's' :: _, 'i' :: 's' :: rest => if rest = ['c'] then "isc" else String.ofList rest
  | _, _ => String.ofList kept

/-- The categories that a name stands for. -/
def categories : List (List String × List Category) :=
  [(["other", "c"], [.cc, .cf, .co, .cn]),
   (["control", "cc", "cntrl"], [.cc]),
   (["format", "cf"], [.cf]),
   (["unassigned", "cn"], [.cn]),
   (["privateuse", "co"], [.co]),
   (["letter", "l"], [.lu, .ll, .lt, .lm, .lo]),
   (["casedletter", "lc"], [.lu, .ll, .lt]),
   (["lowercaseletter", "ll"], [.ll]),
   (["modifierletter", "lm"], [.lm]),
   (["otherletter", "lo"], [.lo]),
   (["titlecaseletter", "lt"], [.lt]),
   (["uppercaseletter", "lu"], [.lu]),
   (["mark", "m", "combiningmark"], [.mn, .mc, .me]),
   (["spacingmark", "mc"], [.mc]),
   (["enclosingmark", "me"], [.me]),
   (["nonspacingmark", "mn"], [.mn]),
   (["number", "n"], [.nd, .nl, .no]),
   (["decimalnumber", "nd", "digit"], [.nd]),
   (["letternumber", "nl"], [.nl]),
   (["othernumber", "no"], [.no]),
   (["punctuation", "p", "punct"], [.pc, .pd, .ps, .pe, .pi, .pf, .po]),
   (["connectorpunctuation", "pc"], [.pc]),
   (["dashpunctuation", "pd"], [.pd]),
   (["closepunctuation", "pe"], [.pe]),
   (["finalpunctuation", "pf"], [.pf]),
   (["initialpunctuation", "pi"], [.pi]),
   (["otherpunctuation", "po"], [.po]),
   (["openpunctuation", "ps"], [.ps]),
   (["symbol", "s"], [.sm, .sc, .sk, .so]),
   (["currencysymbol", "sc"], [.sc]),
   (["modifiersymbol", "sk"], [.sk]),
   (["mathsymbol", "sm"], [.sm]),
   (["othersymbol", "so"], [.so]),
   (["separator", "z"], [.zs, .zl, .zp]),
   (["lineseparator", "zl"], [.zl]),
   (["paragraphseparator", "zp"], [.zp]),
   (["spaceseparator", "zs"], [.zs])]

/-- The set of a general category, by its normalized name. -/
def category? (name : String) : Option CharSet :=
  if name = "any" then some .all
  else if name = "assigned" then some (.compl (.named (.kinds [.cn])))
  else if name = "ascii" then some (.range '\x00' '\x7f')
  else (categories.find? fun entry => entry.1.contains name).map fun entry =>
    .named (.kinds entry.2)

/-- The set of a script, by its normalized name. -/
def script? (name : String) : Option CharSet :=
  (Script.names.lookup name).map fun s => .named (.script s)

/-- The set of a property that characters have or lack, by its normalized name. -/
def binary? (name : String) : Option CharSet :=
  if name = "alphabetic" || name = "alpha" then some (.named .alphabetic)
  else if name = "lowercase" || name = "lower" then some (.named .lower)
  else if name = "uppercase" || name = "upper" then some (.named .upper)
  else if name = "whitespace" || name = "wspace" || name = "space" then some (.named .white)
  else if name = "asciihexdigit" || name = "ahex" then
    some (.ofRanges [('0', '9'), ('A', 'F'), ('a', 'f')])
  else none

/-- The set that a property name stands for. -/
def named? (name : String) : Option CharSet :=
  let name := normalized name
  (binary? name).or ((category? name).or (script? name))

/-- The set of the characters for which a property has a value. -/
def valued? (property value : String) : Option CharSet :=
  let property := normalized property
  let value := normalized value
  if property = "generalcategory" || property = "gc" then category? value
  else if property = "script" || property = "sc" then script? value
  else none

/-- Splits a text before and after the first occurrence of a separator. -/
def splitAt? (separator : List Char) : List Char → Option (List Char × List Char)
  | [] => if separator.isEmpty then some ([], []) else none
  | c :: rest =>
    if separator.isPrefixOf (c :: rest) then some ([], (c :: rest).drop separator.length)
    else (splitAt? separator rest).map fun (left, right) => (c :: left, right)

/-- The set that the text between the braces of a property escape stands for. -/
def ofText? (text : List Char) : Option CharSet :=
  match splitAt? ['!', '='] text with
  | some (property, value) =>
    (valued? (String.ofList property) (String.ofList value)).map .compl
  | none =>
    match (splitAt? [':'] text).or (splitAt? ['='] text) with
    | some (property, value) => valued? (String.ofList property) (String.ofList value)
    | none => named? (String.ofList text)

/-- The ASCII classes that have a name in brackets. -/
def asciiClass? (name : String) : Option CharSet :=
  match name with
  | "alnum" => some (.ofRanges [('0', '9'), ('A', 'Z'), ('a', 'z')])
  | "alpha" => some (.ofRanges [('A', 'Z'), ('a', 'z')])
  | "ascii" => some (.range '\x00' '\x7f')
  | "blank" => some (.ofRanges [('\t', '\t'), (' ', ' ')])
  | "cntrl" => some (.ofRanges [('\x00', '\x1f'), ('\x7f', '\x7f')])
  | "digit" => some .asciiDigit
  | "graph" => some (.range '!' '~')
  | "lower" => some (.range 'a' 'z')
  | "print" => some (.range ' ' '~')
  | "punct" => some (.ofRanges [('!', '/'), (':', '@'), ('[', '\x60'), ('\x7b', '~')])
  | "space" => some .asciiWhite
  | "upper" => some (.range 'A' 'Z')
  | "word" => some .asciiWord
  | "xdigit" => some (.ofRanges [('0', '9'), ('A', 'F'), ('a', 'f')])
  | _ => none

end Property

end TextAnalysis.Pattern
