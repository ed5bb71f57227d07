import TextAnalysis.Failure
import TextAnalysis.Json
import TextAnalysis.Text.Utf8

/-!
# Reading JSON texts

A text is read into a draft: the tree of its values as far as the text is well formed, with the
fault at the place where it is not. What is asked of a draft decides whether a fault counts: a value
of the wrong kind is reported before a fault inside or behind it, and numbers out of range and
unpaired surrogates do not count in values that are passed over.
-/

set_option autoImplicit false

namespace TextAnalysis.Json

/-- What follows the last item or member that could be read. -/
inductive Ending where
  | closed
  | broken (fault : JsonFault)
  deriving DecidableEq, Repr

/-- A value as far as it could be read. -/
inductive Draft where
  | null
  | bool (b : Bool)
  | integer (negative : Bool) (n : Nat)
  | decimal (negative : Bool) (d : Decimal)
  | string (s : String)
  /-- A number or string that is well formed and cannot be used. -/
  | unusable
  | array (items : List Draft) (ending : Ending)
  | object (members : List (String × Draft)) (ending : Ending)
  /-- No value. The fault may be another one where the value is passed over. -/
  | broken (used skipped : JsonFault)

/-- What has been read, and the rest of the text unless reading came to its end. -/
abbrev Reading (α : Type) := α × Option (List Char)

/-- The blanks of JSON. -/
def isBlank (c : Char) : Bool := c == ' ' || c == '\t' || c == '\n' || c == '\r'

/-- A text without the blanks at its start. -/
def skipBlanks (text : List Char) : List Char := text.dropWhile isBlank

/-! ## Words and numbers -/

/-- Reads the rest of a word that stands for a value. -/
def readWord (value : Draft) : List Char → List Char → Reading Draft
  | [], text => (value, some text)
  | _ :: _, [] => (.broken .truncated .truncated, none)
  | c :: word, d :: text =>
    if c = d then readWord value word text else (.broken .malformed .malformed, none)

/-- The value of decimal digits. -/
def digitsValue (digits : List Char) : Nat :=
  digits.foldl (fun n d => 10 * n + (d.toNat - 48)) 0

/-- A numeral that breaks off: at the end of the text this counts as truncation, unless it is
passed over. -/
def brokenNumber (rest : List Char) : Reading Draft :=
  (.broken (if rest.isEmpty then .truncated else .malformed) .malformed, none)

/-- The greatest number of digits before the point with which a number can be in range. -/
def maxPoint : Int := 309

/-- Is the decimal too large for a number of double precision? -/
def isOutOfRange (d : Decimal) : Bool :=
  if d.digits = 0 then false
  else if maxPoint < d.point then true
  else if d.point < maxPoint then false
  else
    let (num, den) := Decimal.scaled d.digits 1 (-d.scale)
    let (m, q) := Rounding.toBinary 53 (-1074) num den
    let (num, den) := Rounding.ofBinary m q
    den * Nat.pow 2 1024 ≤ num

/-- The draft of a number with a fraction or an exponent, or with too many digits, without the zeros
at its end. Numbers too small to tell from zero are zero. -/
def decimalDraft (negative : Bool) (d : Decimal) : Draft :=
  if isOutOfRange d then .unusable
  else if d.point < -400 then .decimal negative ⟨0, 0⟩
  else .decimal negative (d.trimmed (Nat.toDigits 10 d.digits).length)

/-- Reads the exponent of a number, after its letter. -/
def readExponent (negative : Bool) (digits : Nat) (scale : Int) (text : List Char) :
    Reading Draft :=
  let (minus, text) :=
    match text with
    | '+' :: rest => (false, rest)
    | '-' :: rest => (true, rest)
    | _ => (false, text)
  match text.takeWhile Char.isDigit with
  | [] => brokenNumber text
  | exponent =>
    let power : Int := digitsValue exponent
    (decimalDraft negative ⟨digits, scale + (if minus then -power else power)⟩,
      some (text.dropWhile Char.isDigit))

/-- Reads what follows the digits before the point. -/
def readFraction (negative : Bool) (whole : List Char) (text : List Char) : Reading Draft :=
  match text with
  | '.' :: rest =>
    match rest.takeWhile Char.isDigit with
    | [] => brokenNumber rest
    | fraction =>
      let digits := digitsValue (whole ++ fraction)
      let scale : Int := -fraction.length
      match rest.dropWhile Char.isDigit with
      | 'e' :: after => readExponent negative digits scale after
      | 'E' :: after => readExponent negative digits scale after
      | after => (decimalDraft negative ⟨digits, scale⟩, some after)
  | 'e' :: after => readExponent negative (digitsValue whole) 0 after
  | 'E' :: after => readExponent negative (digitsValue whole) 0 after
  | _ =>
    let n := digitsValue whole
    let bound := if negative then Nat.pow 2 63 else Nat.pow 2 64 - 1
    if n ≤ bound && !(negative && n = 0) then (.integer negative n, some text)
    else (decimalDraft negative ⟨n, 0⟩, some text)

/-- Reads a number, after its sign. -/
def readNumber (negative : Bool) (text : List Char) : Reading Draft :=
  match text with
  | [] => brokenNumber []
  | '0' :: rest =>
    match rest with
    | c :: _ =>
      if c.isDigit then (.broken .malformed .malformed, none)
      else readFraction negative ['0'] rest
    | [] => readFraction negative ['0'] []
  | c :: rest =>
    if c.isDigit then
      readFraction negative (c :: rest.takeWhile Char.isDigit) (rest.dropWhile Char.isDigit)
    else brokenNumber (c :: rest)

/-! ## Strings -/

/-- The value of a hexadecimal digit. -/
def hexDigit? (c : Char) : Option Nat :=
  if '0' ≤ c && c ≤ '9' then some (c.toNat - 48)
  else if 'A' ≤ c && c ≤ 'F' then some (c.toNat - 55)
  else if 'a' ≤ c && c ≤ 'f' then some (c.toNat - 87)
  else none

/-- The value of the four hexadecimal digits at the start of a text, and the rest. -/
def readUnit (text : List Char) : Except JsonFault (Nat × List Char) :=
  match text with
  | a :: b :: c :: d :: rest =>
    match [a, b, c, d].mapM hexDigit? with
    | some values => .ok (values.foldl (fun n v => 16 * n + v) 0, rest)
    | none => .error (if Text.byteLength text < 4 then .truncated else .malformed)
  | _ => .error (if Text.byteLength text < 4 then .truncated else .malformed)

/-- The character of an escape by a letter or sign. -/
def simpleEscape? (c : Char) : Option Char :=
  if c = '"' || c = '\\' || c = '/' then some c
  else if c = 'b' then some '\x08'
  else if c = 'f' then some '\x0c'
  else if c = 'n' then some '\n'
  else if c = 'r' then some '\r'
  else if c = 't' then some '\t'
  else none

/-- A string as far as it has been read: its characters, last first, or the fault of an unpaired
surrogate in it. -/
abbrev Content := Except JsonFault (List Char)

/-- One more character. -/
def Content.push (s : Content) (c : Char) : Content := s.map (c :: ·)

/-- Notes a fault, unless there is one already. -/
def Content.fail (s : Content) (fault : JsonFault) : Content :=
  match s with
  | .ok _ => .error fault
  | .error first => .error first

/-- What is read where a string breaks off. -/
def Content.broken (s : Content) (fault : JsonFault) :
    Reading (Except (JsonFault × JsonFault) Content) :=
  match s with
  | .ok _ => (.error (fault, fault), none)
  | .error first => (.error (first, fault), none)

/-- A pair of surrogates as a character. -/
def pairChar (high low : Nat) : Char :=
  Char.ofNat (0x10000 + (high - 0xD800) * 0x400 + (low - 0xDC00))

/-- Reads a string, after its opening quote. `high` is a leading surrogate that waits for the
trailing one. The answer is the content, or the faults with which the string breaks off. -/
def readContent (s : Content) :
    (fuel : Nat) → List Char → Reading (Except (JsonFault × JsonFault) Content)
  | 0, _ => s.broken .truncated
  | fuel + 1, text =>
    match text with
    | [] => s.broken .truncated
    | '"' :: rest => (.ok s, some rest)
    | '\\' :: 'u' :: rest =>
      match readUnit rest with
      | .error fault => s.broken fault
      | .ok (unit, rest) =>
        if 0xDC00 ≤ unit && unit ≤ 0xDFFF then readContent (s.fail .malformed) fuel rest
        else if 0xD800 ≤ unit && unit ≤ 0xDBFF then
          match rest with
          | [] => (s.fail .truncated).broken .truncated
          | '\\' :: [] => (s.fail .truncated).broken .truncated
          | '\\' :: 'u' :: after =>
            match readUnit after with
            | .error fault => s.broken fault
            | .ok (low, after) =>
              if 0xDC00 ≤ low && low ≤ 0xDFFF then
                readContent (s.push (pairChar unit low)) fuel after
              else readContent (s.fail .malformed) fuel rest
          | _ => readContent (s.fail .malformed) fuel rest
        else readContent (s.push (Char.ofNat unit)) fuel rest
    | '\\' :: rest =>
      match rest with
      | [] => s.broken .truncated
      | c :: rest =>
        match simpleEscape? c with
        | some d => readContent (s.push d) fuel rest
        | none => s.broken .malformed
    | c :: rest => if c.toNat < 0x20 then s.broken .malformed else readContent (s.push c) fuel rest

/-- Reads a string, after its opening quote. -/
def readString (text : List Char) : Reading Draft :=
  match readContent (.ok []) (text.length + 1) text with
  | (.ok (.ok cs), rest) => (.string (String.ofList cs.reverse), rest)
  | (.ok (.error _), rest) => (.unusable, rest)
  | (.error (used, skipped), rest) => (.broken used skipped, rest)

/-! ## Values -/

/-- Adds an item before the others of a list that is read. -/
def consItem (d : Draft) (r : Reading (List Draft × Ending)) : Reading (List Draft × Ending) :=
  ((d :: r.1.1, r.1.2), r.2)

/-- Adds a member before the others of an object that is read. -/
def consMember (key : String) (d : Draft) (r : Reading (List (String × Draft) × Ending)) :
    Reading (List (String × Draft) × Ending) :=
  (((key, d) :: r.1.1, r.1.2), r.2)

mutual

/-- Reads a value. -/
def readValue : (fuel : Nat) → List Char → Reading Draft
  | 0, _ => (.broken .truncated .truncated, none)
  | fuel + 1, text =>
    match skipBlanks text with
    | [] => (.broken .truncated .truncated, none)
    | 'n' :: rest => readWord .null ['u', 'l', 'l'] rest
    | 't' :: rest => readWord (.bool true) ['r', 'u', 'e'] rest
    | 'f' :: rest => readWord (.bool false) ['a', 'l', 's', 'e'] rest
    | '"' :: rest => readString rest
    | '-' :: rest => readNumber true rest
    | '[' :: rest =>
      match readItems true fuel rest with
      | ((items, ending), rest) => (.array items ending, rest)
    | '\x7b' :: rest =>
      match readMembers true fuel rest with
      | ((members, ending), rest) => (.object members ending, rest)
    | c :: rest =>
      if c.isDigit then readNumber false (c :: rest) else (.broken .malformed .malformed, none)

/-- Reads the items of an array up to its end. `first` tells that none has been read. -/
def readItems (first : Bool) : (fuel : Nat) → List Char → Reading (List Draft × Ending)
  | 0, _ => (([], .broken .truncated), none)
  | fuel + 1, text =>
    match skipBlanks text with
    | [] => (([], .broken .truncated), none)
    | ']' :: rest => (([], .closed), some rest)
    | c :: rest =>
      if !first && c ≠ ',' then (([], .broken .malformed), none)
      else
        let text := if first then c :: rest else skipBlanks rest
        match text with
        | [] => (([], .broken .truncated), none)
        | ']' :: _ => (([], .broken .malformed), none)
        | _ =>
          match readValue fuel text with
          | (d, some rest) => consItem d (readItems false fuel rest)
          | (d, none) => (([d], .closed), none)

/-- Reads the members of an object up to its end. -/
def readMembers (first : Bool) :
    (fuel : Nat) → List Char → Reading (List (String × Draft) × Ending)
  | 0, _ => (([], .broken .truncated), none)
  | fuel + 1, text =>
    match skipBlanks text with
    | [] => (([], .broken .truncated), none)
    | '\x7d' :: rest => (([], .closed), some rest)
    | c :: rest =>
      if !first && c ≠ ',' then (([], .broken .malformed), none)
      else
        match (if first then c :: rest else skipBlanks rest) with
        | [] => (([], .broken .truncated), none)
        | '"' :: rest =>
          match readString rest with
          | (.string key, some rest) =>
            match skipBlanks rest with
            | [] => (([(key, .broken .truncated .truncated)], .closed), none)
            | ':' :: rest =>
              match readValue fuel rest with
              | (d, some rest) => consMember key d (readMembers false fuel rest)
              | (d, none) => (([(key, d)], .closed), none)
            | _ => (([(key, .broken .malformed .malformed)], .closed), none)
          | (.broken used _, _) => (([], .broken used), none)
          | _ => (([], .broken .malformed), none)
        | _ => (([], .broken .malformed), none)

end

/-- Reads a text: the draft of its value, and whether anything but blanks follows it. -/
def readText (text : String) : Draft × Bool :=
  match readValue (text.toList.length + 1) text.toList with
  | (d, some rest) => (d, !(skipBlanks rest).isEmpty)
  | (d, none) => (d, false)

end TextAnalysis.Json
