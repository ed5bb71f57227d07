import TextAnalysis.Unicode.Category

/-!
# Classes of characters

White space, word characters, digits, marks, the classes that the rule for a final sigma reads, and
the characters that a quoted text writes as escapes.

White space is listed outright, and word characters and digits are decided without the table below
code point 128, so that both can be decided on a given character by evaluation.
-/

set_option autoImplicit false

namespace TextAnalysis.Unicode

/-- White space, as opposed to the smaller set of ASCII blanks. -/
def isWhite (c : Char) : Bool :=
  let n := c.toNat
  (0x9 ≤ n && n ≤ 0xD) || n == 0x20 || n == 0x85 || n == 0xA0 || n == 0x1680 ||
    (0x2000 ≤ n && n ≤ 0x200A) || n == 0x2028 || n == 0x2029 || n == 0x202F || n == 0x205F ||
    n == 0x3000

/-- The letters, digits and underscore of ASCII. -/
def isAsciiWord (c : Char) : Bool :=
  let n := c.toNat
  (0x30 ≤ n && n ≤ 0x39) || (0x41 ≤ n && n ≤ 0x5A) || (0x61 ≤ n && n ≤ 0x7A) || n == 0x5F

/-- Is the character below code point 128? -/
def isAscii (c : Char) : Bool := c.toNat < 128

/-- Circled and squared letters: symbols that count as alphabetic. -/
def isEnclosedLetter (c : Char) : Bool :=
  let n := c.toNat
  (0x24B6 ≤ n && n ≤ 0x24E9) || (0x1F130 ≤ n && n ≤ 0x1F149) || (0x1F150 ≤ n && n ≤ 0x1F169) ||
    (0x1F170 ≤ n && n ≤ 0x1F189)

/-- The two joiners, which glue letters together inside a word. -/
def isJoiner (c : Char) : Bool := c.toNat == 0x200C || c.toNat == 0x200D

/-- Marks: characters that combine with the one before them. -/
def isMark (c : Char) : Bool := !isAscii c && (category c).isMark

/-- Decimal digits of any script. -/
def isDigit (c : Char) : Bool :=
  if isAscii c then 0x30 ≤ c.toNat && c.toNat ≤ 0x39 else category c == .nd

/-- Alphabetic characters: letters, letter-like numerals and enclosed letters. Vowel signs, which
are marks, are left out here; `isWord` has all marks. -/
def isLetterLike (c : Char) : Bool :=
  let k := category c
  k.isLetter || k == .nl || isEnclosedLetter c

/-- Word characters: letters, marks, decimal digits, connectors such as the underscore, and the
joiners. -/
def isWord (c : Char) : Bool :=
  if isAscii c then isAsciiWord c
  else
    let k := category c
    k.isLetter || k.isMark || k == .nl || k == .nd || k == .pc || isEnclosedLetter c || isJoiner c

/-- Modifier letters and other characters that count as lower case without being lower-case
letters. -/
def isOtherLower (c : Char) : Bool :=
  let n := c.toNat
  n == 0xAA || n == 0xBA || (0x2B0 ≤ n && n ≤ 0x2B8) || n == 0x2C0 || n == 0x2C1 ||
    (0x2E0 ≤ n && n ≤ 0x2E4) || n == 0x345 || n == 0x37A || n == 0x10FC ||
    (0x1D2C ≤ n && n ≤ 0x1D6A) || n == 0x1D78 || (0x1D9B ≤ n && n ≤ 0x1DBF) || n == 0x2071 ||
    n == 0x207F || (0x2090 ≤ n && n ≤ 0x209C) || (0x2170 ≤ n && n ≤ 0x217F) ||
    (0x24D0 ≤ n && n ≤ 0x24E9) || n == 0x2C7C || n == 0x2C7D || n == 0xA69C || n == 0xA69D ||
    n == 0xA770 || (0xA7F1 ≤ n && n ≤ 0xA7F4) || n == 0xA7F8 || n == 0xA7F9 ||
    (0xAB5C ≤ n && n ≤ 0xAB5F) || n == 0xAB69 || n == 0x10780 || (0x10783 ≤ n && n ≤ 0x10785) ||
    (0x10787 ≤ n && n ≤ 0x107B0) || (0x107B2 ≤ n && n ≤ 0x107BA) || (0x1E030 ≤ n && n ≤ 0x1E06D)

/-- Numerals and enclosed letters that count as upper case without being upper-case letters. -/
def isOtherUpper (c : Char) : Bool :=
  let n := c.toNat
  (0x2160 ≤ n && n ≤ 0x216F) || (0x24B6 ≤ n && n ≤ 0x24CF) || (0x1F130 ≤ n && n ≤ 0x1F149) ||
    (0x1F150 ≤ n && n ≤ 0x1F169) || (0x1F170 ≤ n && n ≤ 0x1F189)

/-- Lower-case characters. -/
def isLower (c : Char) : Bool := category c == .ll || isOtherLower c

/-- Upper-case characters. -/
def isUpper (c : Char) : Bool := category c == .lu || isOtherUpper c

/-- Characters that have a case. -/
def isCased (c : Char) : Bool := (category c).isCasedLetter || isOtherLower c || isOtherUpper c

/-- Characters that are passed over when one looks for a cased neighbour. -/
def isCaseIgnorable (c : Char) : Bool :=
  let n := c.toNat
  let k := category c
  k == .mn || k == .me || k == .cf || k == .lm || k == .sk || n == 0x27 || n == 0x2E ||
    n == 0x3A || n == 0xB7 || n == 0x387 || n == 0x55F || n == 0x5F4 || n == 0x2018 ||
    n == 0x2019 || n == 0x2024 || n == 0x2027 || n == 0xFE13 || n == 0xFE52 || n == 0xFE55 ||
    n == 0xFF07 || n == 0xFF0E || n == 0xFF1A

/-- Spacing marks and others that extend the character before them although their category alone
does not say so. -/
def isOtherExtender (c : Char) : Bool :=
  [0x9BE, 0x9D7, 0xB3E, 0xB57, 0xBBE, 0xBD7, 0xCC0, 0xCC2, 0xCC7, 0xCC8, 0xCCA, 0xCCB, 0xCD5,
   0xCD6, 0xD3E, 0xD57, 0xDCF, 0xDDF, 0x1715, 0x1734, 0x1B35, 0x1B3B, 0x1B3D, 0x1B43, 0x1B44,
   0x1BAA, 0x1BF2, 0x1BF3, 0x200C, 0x302E, 0x302F, 0xA953, 0xA9C0, 0xFF9E, 0xFF9F, 0x111C0,
   0x11235, 0x1133E, 0x1134D, 0x11357, 0x113B8, 0x113C2, 0x113C5, 0x113C7, 0x113C8, 0x113C9,
   0x113CF, 0x114B0, 0x114BD, 0x115AF, 0x116B6, 0x11930, 0x1193D, 0x11F41, 0x16FF0, 0x16FF1,
   0x1D165, 0x1D166, 0x1D16D, 0x1D16E, 0x1D16F, 0x1D170, 0x1D171, 0x1D172].contains c.toNat ||
    (0xE0020 ≤ c.toNat && c.toNat ≤ 0xE007F)

/-- Characters that extend the one before them and cannot stand alone. They begin with the combining
marks behind the first 768 characters. -/
def isExtender (c : Char) : Bool :=
  0x300 ≤ c.toNat &&
    (let k := category c
    k == .mn || k == .me || isOtherExtender c)

/-- Characters that are shown as they are: no controls, no format characters, no separators but
the plain space, and nothing unassigned. -/
def isPrintable (c : Char) : Bool :=
  if isAscii c then 0x20 ≤ c.toNat && c.toNat < 0x7F
  else
    let k := category c
    !(k.isOther || k.isSeparator)

end TextAnalysis.Unicode
