import TextAnalysis.Pattern.Expr
import TextAnalysis.Pattern.Fault
import TextAnalysis.Pattern.Property

/-!
# Reading patterns

The written form of a pattern, read from left to right into an expression. Flags hold from the
place where they are set to the end of the group around it. `readPattern` answers the expression of
a text, or why the text is not a pattern.
-/

set_option autoImplicit false

namespace TextAnalysis.Pattern

/-- The flags in force at a place of a pattern. -/
structure Flags where
  anyCase : Bool := false
  multiLine : Bool := false
  dotAll : Bool := false
  lazyFirst : Bool := false
  unicode : Bool := true
  crlf : Bool := false
  spaced : Bool := false
  deriving DecidableEq, Repr

namespace Flags

/-- Sets the flag with the given letter. -/
def set (f : Flags) (letter : Char) (value : Bool) : Option Flags :=
  match letter with
  | 'i' => some { f with anyCase := value }
  | 'm' => some { f with multiLine := value }
  | 's' => some { f with dotAll := value }
  | 'U' => some { f with lazyFirst := value }
  | 'u' => some { f with unicode := value }
  | 'R' => some { f with crlf := value }
  | 'x' => some { f with spaced := value }
  | _ => none

/-- The set with the letters of both cases added where case does not count. -/
def close (f : Flags) (s : CharSet) : CharSet :=
  if f.anyCase then (if f.unicode then .anyCase s else .anyAsciiCase s) else s

/-- The complement of a set, which is not available where only ASCII is. -/
def complement (f : Flags) (s : CharSet) : Except Fault CharSet :=
  if f.unicode then .ok (.compl s) else .error .needsUnicode

end Flags

/-- Drops blanks and comments, which run from a number sign to the end of the line. -/
def dropBlanks (comment : Bool) : List Char → List Char
  | [] => []
  | c :: rest =>
    if comment then dropBlanks (c != '\n') rest
    else if Unicode.isWhite c then dropBlanks false rest
    else if c = '#' then dropBlanks true rest
    else c :: rest

/-- Drops what does not count where blanks are not part of the pattern. -/
def Flags.skip (f : Flags) (text : List Char) : List Char :=
  if f.spaced then dropBlanks false text else text

/-- The characters that have a meaning of their own in patterns. -/
def metaChars : List Char :=
  ['\\', '.', '+', '*', '?', '(', ')', '|', '[', ']', '\x7b', '\x7d', '^', '$', '#', '&', '-', '~']

/-- A pattern text that matches exactly the character. -/
def escape (c : Char) : List Char := if metaChars.contains c then ['\\', c] else [c]

/-- May the character stand for itself behind a backslash? -/
def isEscapable (c : Char) : Bool :=
  metaChars.contains c ||
    (Unicode.isAscii c && !c.isAlphanum && c != '<' && c != '>')

/-- A part of a pattern that is written without other parts. -/
inductive Atom where
  | char (c : Char)
  | set (s : CharSet)
  | look (a : Assertion)
  deriving DecidableEq, Repr

/-- The value of a hexadecimal digit. -/
def hexDigit? (c : Char) : Option Nat :=
  if '0' ≤ c && c ≤ '9' then some (c.toNat - 48)
  else if 'A' ≤ c && c ≤ 'F' then some (c.toNat - 55)
  else if 'a' ≤ c && c ≤ 'f' then some (c.toNat - 87)
  else none

/-- The character with a code point, where there is one. -/
def charOfCode? (code : Nat) : Option Char :=
  if code.isValidChar then some (Char.ofNat code) else none

/-- Reads as many hexadecimal digits as `count` says, after the value read so far. -/
def readHexDigits (f : Flags) (value : Nat) : Nat → List Char → Except Fault (Nat × List Char)
  | 0, text => .ok (value, text)
  | count + 1, text =>
    match text with
    | [] => .error .badEscape
    | c :: rest =>
      match hexDigit? c with
      | some d => readHexDigits f (16 * value + d) count (f.skip rest)
      | none => .error .badEscape

/-- Reads text up to a closing brace, leaving out blanks where they do not count. -/
def readBraced (f : Flags) (comment : Bool) : List Char → Option (List Char × List Char)
  | [] => none
  | c :: rest =>
    if comment then readBraced f (c != '\n') rest
    else if f.spaced && Unicode.isWhite c then readBraced f false rest
    else if f.spaced && c = '#' then readBraced f true rest
    else if c = '\x7d' then some ([], rest)
    else (readBraced f false rest).map fun (inner, rest) => (c :: inner, rest)

/-- Reads a code point written in hexadecimal digits, `width` of them or any number in braces. -/
def readHex (f : Flags) (width : Nat) (text : List Char) : Except Fault (Char × List Char) := do
  let (code, rest) ←
    match f.skip text with
    | '\x7b' :: inner =>
      match readBraced f false inner with
      | none => .error .badEscape
      | some (digits, rest) =>
        match digits.mapM hexDigit? with
        | none | some [] => .error .badEscape
        | some values => .ok (values.foldl (fun n d => 16 * n + d) 0, rest)
    | text => readHexDigits f 0 width text
  match charOfCode? code with
  | some c => .ok (c, f.skip rest)
  | none => .error .badEscape

/-- Reads the name of a Unicode property, after the letter of the escape. -/
def readProperty (f : Flags) (negated : Bool) (text : List Char) :
    Except Fault (CharSet × List Char) := do
  let (name, rest) ←
    match f.skip text with
    | [] => .error .badEscape
    | '\x7b' :: inner =>
      match readBraced f false inner with
      | none => .error .badEscape
      | some found => .ok found
    | '\\' :: _ => .error .unknownProperty
    | c :: rest => .ok ([c], f.skip rest)
  if !f.unicode then .error .needsUnicode
  else
    match Property.ofText? name with
    | none => .error .unknownProperty
    | some s => .ok (if negated then .compl (f.close s) else f.close s, rest)

/-- Reads what may follow the escape for a word boundary to name a kind of boundary. -/
def readBoundary (f : Flags) (text : List Char) : Except Fault (Assertion × List Char) :=
  let ascii := !f.unicode
  match text with
  | '\x7b' :: inner =>
    match f.skip inner with
    | [] => .error .badEscape
    | c :: _ =>
      if !(c.isAlpha || c == '-') then .ok (.wordBoundary ascii, text)
      else
        match readBraced f false inner with
        | none => .error .badEscape
        | some (name, rest) =>
          match String.ofList name with
          | "start" => .ok (.wordStart ascii, rest)
          | "end" => .ok (.wordEnd ascii, rest)
          | "start-half" => .ok (.wordStartHalf ascii, rest)
          | "end-half" => .ok (.wordEndHalf ascii, rest)
          | _ => .error .badEscape
  | _ => .ok (.wordBoundary ascii, text)

/-- A class with one form for Unicode and one for ASCII, or its complement. -/
def classAtom (f : Flags) (negated : Bool) (k : CharClass) (ascii : CharSet) :
    Except Fault Atom := do
  let s := if f.unicode then .named k else ascii
  if negated then return .set (← f.complement s) else return .set s

/-- Reads what follows a backslash. -/
def readEscape (f : Flags) : List Char → Except Fault (Atom × List Char)
  | [] => .error .badEscape
  | c :: rest =>
    if c.isDigit then .error .backReference
    else if isEscapable c then .ok (.char c, rest)
    else
      match c with
      | 'x' => do let (d, rest) ← readHex f 2 rest; return (.char d, rest)
      | 'u' => do let (d, rest) ← readHex f 4 rest; return (.char d, rest)
      | 'U' => do let (d, rest) ← readHex f 8 rest; return (.char d, rest)
      | 'p' => do let (s, rest) ← readProperty f false rest; return (.set s, rest)
      | 'P' => do let (s, rest) ← readProperty f true rest; return (.set s, rest)
      | 'd' => do return (← classAtom f false .digit .asciiDigit, rest)
      | 'D' => do return (← classAtom f true .digit .asciiDigit, rest)
      | 's' => do return (← classAtom f false .white .asciiWhite, rest)
      | 'S' => do return (← classAtom f true .white .asciiWhite, rest)
      | 'w' => do return (← classAtom f false .word .asciiWord, rest)
      | 'W' => do return (← classAtom f true .word .asciiWord, rest)
      | 'a' => .ok (.char '\x07', rest)
      | 'f' => .ok (.char '\x0c', rest)
      | 't' => .ok (.char '\t', rest)
      | 'n' => .ok (.char '\n', rest)
      | 'r' => .ok (.char '\r', rest)
      | 'v' => .ok (.char '\x0b', rest)
      | 'A' => .ok (.look .textStart, rest)
      | 'z' => .ok (.look .textEnd, rest)
      | 'b' => do let (a, rest) ← readBoundary f rest; return (.look a, rest)
      | 'B' => .ok (.look (.notWordBoundary (!f.unicode)), rest)
      | '<' => .ok (.look (.wordStart (!f.unicode)), rest)
      | '>' => .ok (.look (.wordEnd (!f.unicode)), rest)
      | _ => .error .badEscape

/-! ## Bracketed classes -/

/-- The operators between the parts of a bracketed class. -/
inductive SetOperator where
  | inter
  | diff
  | symmDiff
  deriving DecidableEq, Repr

/-- The set that an operator makes of two sets. -/
def SetOperator.apply : SetOperator → CharSet → CharSet → CharSet
  | inter, s, t => .inter s t
  | diff, s, t => .diff s t
  | symmDiff, s, t => .symmDiff s t

/-- An open bracket: whether its complement is meant, what stands left of the last operator, and
the parts read since, last first. -/
structure Bracket where
  negated : Bool
  left : Option (CharSet × SetOperator)
  items : List CharSet

namespace Bracket

/-- One more part. -/
def push (b : Bracket) (s : CharSet) : Bracket := { b with items := s :: b.items }

/-- What the bracket holds so far, without its complement. -/
def joined (f : Flags) (b : Bracket) : CharSet :=
  let right := .unionOf b.items.reverse
  match b.left with
  | none => right
  | some (left, operator) => operator.apply (f.close left) (f.close right)

/-- Starts the right-hand side of an operator. -/
def operate (f : Flags) (b : Bracket) (operator : SetOperator) : Bracket :=
  { b with left := some (b.joined f, operator), items := [] }

/-- The set of a bracket that is complete. -/
def close (f : Flags) (b : Bracket) : Except Fault CharSet :=
  if b.negated then f.complement (f.close (b.joined f)) else .ok (f.close (b.joined f))

end Bracket

/-- Reads the dashes at the start of a bracket, which stand for themselves. -/
def readDashes (f : Flags) (items : List CharSet) : Nat → List Char → List CharSet × List Char
  | 0, text => (items, text)
  | fuel + 1, text =>
    match text with
    | '-' :: rest => readDashes f (.single '-' :: items) fuel (f.skip rest)
    | _ => (items, text)

/-- Reads the start of a bracket, after the bracket itself. -/
def openBracket (f : Flags) (text : List Char) : Except Fault (Bracket × List Char) :=
  let text := f.skip text
  let (negated, text) :=
    match text with
    | '^' :: rest => (true, f.skip rest)
    | _ => (false, text)
  let (items, text) := readDashes f [] text.length text
  match items, text with
  | _, [] => .error .badClass
  | [], ']' :: rest => .ok (⟨negated, none, [.single ']']⟩, f.skip rest)
  | items, text => .ok (⟨negated, none, items⟩, text)

/-- Reads the name of an ASCII class with its colons and brackets, after the first bracket. -/
def readAsciiClass (text : List Char) : Option (Bool × CharSet × List Char) :=
  match text with
  | ':' :: rest =>
    let (negated, rest) :=
      match rest with
      | '^' :: rest => (true, rest)
      | _ => (false, rest)
    match rest.dropWhile (· != ':') with
    | ':' :: ']' :: after =>
      (Property.asciiClass? (String.ofList (rest.takeWhile (· != ':')))).map fun s =>
        (negated, s, after)
    | _ => none
  | _ => none

/-- Reads a character or an escape in a bracket. -/
def readClassAtom (f : Flags) : List Char → Except Fault (Atom × List Char)
  | [] => .error .badClass
  | '\\' :: rest => readEscape f rest
  | c :: rest => .ok (.char c, rest)

/-- The set of a part of a bracket. -/
def Atom.asSet (f : Flags) : Atom → Except Fault CharSet
  | char c => if f.unicode || Unicode.isAscii c then .ok (.single c) else .error .needsUnicode
  | set s => .ok s
  | look _ => .error .badClass

/-- Does the text continue a range, after its first character? A dash does, unless the bracket or
an operator follows it. -/
def continuesRange (f : Flags) : List Char → Bool
  | '-' :: rest =>
    match f.skip rest with
    | ']' :: _ => false
    | '-' :: _ => false
    | _ => true
  | _ => false

/-- Reads one character, escape or range in a bracket. -/
def readClassItem (f : Flags) (text : List Char) : Except Fault (CharSet × List Char) := do
  let (first, rest) ← readClassAtom f text
  let rest := f.skip rest
  if continuesRange f rest then
    let (last, rest) ← readClassAtom f (f.skip (rest.drop 1))
    match first, last with
    | .char a, .char b =>
      if a ≤ b then
        if f.unicode || Unicode.isAscii b then return (.range a b, rest)
        else .error .needsUnicode
      else .error .badClass
    | _, _ => .error .badClass
  else return (← first.asSet f, rest)

/-- Reads a bracketed class to its end. `outer` are the brackets around the innermost one. -/
def readClass (f : Flags) (outer : List Bracket) (current : Bracket) :
    Nat → List Char → Except Fault (CharSet × List Char)
  | 0, _ => .error .badClass
  | fuel + 1, text =>
    match f.skip text with
    | [] => .error .badClass
    | '[' :: rest =>
      match readAsciiClass rest with
      | some (negated, s, after) => do
        let s ← if negated then f.complement (f.close s) else .ok (f.close s)
        readClass f outer (current.push s) fuel after
      | none => do
        let (inner, rest) ← openBracket f rest
        readClass f (current :: outer) inner fuel rest
    | ']' :: rest => do
      let s ← current.close f
      match outer with
      | [] => return (s, rest)
      | around :: outer => readClass f outer (around.push s) fuel rest
    | '&' :: '&' :: rest => readClass f outer (current.operate f .inter) fuel rest
    | '-' :: '-' :: rest => readClass f outer (current.operate f .diff) fuel rest
    | '~' :: '~' :: rest => readClass f outer (current.operate f .symmDiff) fuel rest
    | text => do
      let (s, rest) ← readClassItem f text
      readClass f outer (current.push s) fuel rest

/-! ## Repetitions -/

/-- Reads decimal digits, between which blanks may stand where they do not count. -/
def readDigits (f : Flags) (comment : Bool) : List Char → List Char × List Char
  | [] => ([], [])
  | c :: rest =>
    if comment then readDigits f (c != '\n') rest
    else if f.spaced && Unicode.isWhite c then readDigits f false rest
    else if f.spaced && c = '#' then readDigits f true rest
    else if c.isDigit then
      let (digits, rest) := readDigits f false rest
      (c :: digits, rest)
    else ([], c :: rest)

/-- Reads a count with the blanks around it; no count where no digit stands. -/
def readCount (f : Flags) (text : List Char) : Except Fault (Option Nat × List Char) :=
  let (digits, rest) := readDigits f false (text.dropWhile Unicode.isWhite)
  let rest := f.skip (rest.dropWhile Unicode.isWhite)
  match digits with
  | [] => .ok (none, rest)
  | _ =>
    let n := digits.foldl (fun n d => 10 * n + (d.toNat - 48)) 0
    if n < 4294967296 then .ok (some n, rest) else .error .badCount

/-- Reads the counts of a repetition, after the opening brace, up to the closing one. -/
def readCounts (f : Flags) (text : List Char) :
    Except Fault ((Nat × Option Nat) × List Char) := do
  let (least, rest) ← readCount f (f.skip text)
  let some least := least | .error .badCount
  let (bounds, rest) ←
    match rest with
    | ',' :: rest =>
      match f.skip rest with
      | '\x7d' :: _ => pure ((least, none), f.skip rest)
      | rest => do
        let (most, rest) ← readCount f rest
        let some most := most | .error .badCount
        if least ≤ most then pure ((least, some most), rest) else .error .badCount
    | _ => pure ((least, some least), rest)
  match rest with
  | '\x7d' :: rest => return (bounds, rest)
  | _ => .error .badCount

/-- Reads the question mark that turns the preference of a repetition round. -/
def readGreed (f : Flags) : List Char → Bool × List Char
  | '?' :: rest => (f.lazyFirst, rest)
  | text => (!f.lazyFirst, text)

/-! ## Groups -/

/-- Reads the flags of a group or directive up to a colon or closing parenthesis, which stays.
`seen` are the letters read so far, and `dangling` tells that a minus sign was read last. -/
def readFlags (f : Flags) (value : Bool) (seen : List Char) (dangling : Bool) :
    List Char → Except Fault (Flags × List Char)
  | [] => .error .badFlags
  | c :: rest =>
    if c = ':' || c = ')' then
      if dangling then .error .badFlags else .ok (f, c :: rest)
    else if seen.contains c then .error .badFlags
    else if c = '-' then readFlags f false (c :: seen) true rest
    else
      match f.set c value with
      | some f => readFlags f value (c :: seen) false rest
      | none => .error .badFlags

/-- Reads the name of a group up to its closing angle bracket. -/
def readGroupName (first : Bool) : List Char → Except Fault (List Char × List Char)
  | [] => .error .badGroupName
  | c :: rest =>
    if c = '>' then (if first then .error .badGroupName else .ok ([], rest))
    else if c = '_' || Unicode.isAlphabetic c ||
        (!first && (c = '.' || c = '[' || c = ']' || (Unicode.category c).isNumber)) then do
      let (name, rest) ← readGroupName false rest
      return (c :: name, rest)
    else .error .badGroupName

/-- What an opening parenthesis starts. -/
inductive Opening where
  | group (inside : Flags) (name : Option (List Char))
  | directive (after : Flags)

/-- Reads what follows an opening parenthesis. -/
def readOpening (f : Flags) (text : List Char) : Except Fault (Opening × List Char) :=
  match f.skip text with
  | '?' :: '=' :: _ => .error .lookAround
  | '?' :: '!' :: _ => .error .lookAround
  | '?' :: '<' :: '=' :: _ => .error .lookAround
  | '?' :: '<' :: '!' :: _ => .error .lookAround
  | '?' :: 'P' :: '<' :: rest => do
    let (name, rest) ← readGroupName true rest
    return (.group f (some name), rest)
  | '?' :: '<' :: rest => do
    let (name, rest) ← readGroupName true rest
    return (.group f (some name), rest)
  | '?' :: rest =>
    match rest with
    | [] => .error .unclosedGroup
    | ')' :: _ => .error .nothingToRepeat
    | _ => do
      let (inside, rest) ← readFlags f true [] false rest
      match rest with
      | ')' :: rest => return (.directive inside, rest)
      | _ => return (.group inside none, rest.drop 1)
  | text => .ok (.group f none, text)

/-! ## The whole pattern -/

/-- A part of a branch: an expression, or a directive, which cannot be repeated. -/
inductive Item where
  | expr (e : Expr)
  | directive

/-- The expression of a part. -/
def Item.asExpr : Item → Option Expr
  | expr e => some e
  | directive => none

/-- An open group: the flags in force around it, its finished branches and the parts of the branch
being read, both last first. -/
structure Group where
  around : Flags
  branches : List Expr
  items : List Item

namespace Group

/-- One more part. -/
def push (g : Group) (i : Item) : Group := { g with items := i :: g.items }

/-- The expression of the branch being read. -/
def branch (g : Group) : Expr := .seqOf (g.items.reverse.filterMap Item.asExpr)

/-- Ends the branch being read. -/
def next (g : Group) : Group := { g with branches := g.branch :: g.branches, items := [] }

/-- The expression of a group that is complete. -/
def close (g : Group) : Expr := .altOf (g.branch :: g.branches).reverse

/-- Repeats the last part. -/
def repeatLast (g : Group) (greedy : Bool) (least : Nat) (most : Option Nat) :
    Except Fault Group :=
  match g.items with
  | .expr e :: items => .ok { g with items := .expr (.loop greedy least most e) :: items }
  | _ => .error .nothingToRepeat

end Group

/-- The expression of a character. -/
def charExpr (f : Flags) (c : Char) : Expr := .one (f.close (.single c))

/-- The expression of the dot. -/
def dotExpr (f : Flags) : Except Fault Expr :=
  if !f.unicode then .error .needsUnicode
  else if f.dotAll then .ok (.one .all)
  else if f.crlf then .ok (.one (.compl (.union (.single '\r') (.single '\n'))))
  else .ok (.one (.compl (.single '\n')))

/-- The condition of a circumflex. -/
def startAssertion (f : Flags) : Assertion :=
  if f.multiLine then (if f.crlf then .lineStartCrlf else .lineStart) else .textStart

/-- The condition of a dollar sign. -/
def endAssertion (f : Flags) : Assertion :=
  if f.multiLine then (if f.crlf then .lineEndCrlf else .lineEnd) else .textEnd

/-- The expression of an escape. -/
def Atom.asExpr (f : Flags) : Atom → Expr
  | char c => charExpr f c
  | set s => .one s
  | look a => .look a

/-- Reads a pattern to its end. `outer` are the groups around the innermost one, and `names` those
that groups have so far. -/
def readItems (f : Flags) (names : List (List Char)) (outer : List Group) (current : Group) :
    Nat → List Char → Except Fault Expr
  | 0, _ => .error .unclosedGroup
  | fuel + 1, text =>
    match f.skip text with
    | [] => if outer.isEmpty then .ok current.close else .error .unclosedGroup
    | '(' :: rest => do
      match ← readOpening f rest with
      | (.directive after, rest) =>
        readItems after names outer (current.push .directive) fuel rest
      | (.group inside none, rest) =>
        readItems inside names (current :: outer) ⟨f, [], []⟩ fuel rest
      | (.group inside (some name), rest) =>
        if names.contains name then .error .badGroupName
        else readItems inside (name :: names) (current :: outer) ⟨f, [], []⟩ fuel rest
    | ')' :: rest =>
      match outer with
      | [] => .error .unopenedGroup
      | enclosing :: outer =>
        readItems current.around names outer (enclosing.push (.expr current.close)) fuel rest
    | '|' :: rest => readItems f names outer current.next fuel rest
    | '[' :: rest => do
      let (bracket, rest) ← openBracket f rest
      let (s, rest) ← readClass f [] bracket (rest.length + 1) rest
      readItems f names outer (current.push (.expr (.one s))) fuel rest
    | '?' :: rest => do
      let (greedy, rest) := readGreed f rest
      readItems f names outer (← current.repeatLast greedy 0 (some 1)) fuel rest
    | '*' :: rest => do
      let (greedy, rest) := readGreed f rest
      readItems f names outer (← current.repeatLast greedy 0 none) fuel rest
    | '+' :: rest => do
      let (greedy, rest) := readGreed f rest
      readItems f names outer (← current.repeatLast greedy 1 none) fuel rest
    | '\x7b' :: rest => do
      let ((least, most), rest) ← readCounts f rest
      let (greedy, rest) := readGreed f (f.skip rest)
      readItems f names outer (← current.repeatLast greedy least most) fuel rest
    | '\\' :: rest => do
      let (atom, rest) ← readEscape f rest
      readItems f names outer (current.push (.expr (atom.asExpr f))) fuel rest
    | '.' :: rest => do
      readItems f names outer (current.push (.expr (← dotExpr f))) fuel rest
    | '^' :: rest =>
      readItems f names outer (current.push (.expr (.look (startAssertion f)))) fuel rest
    | '$' :: rest =>
      readItems f names outer (current.push (.expr (.look (endAssertion f)))) fuel rest
    | c :: rest => readItems f names outer (current.push (.expr (charExpr f c))) fuel rest

/-- Reads a pattern. -/
def readPattern (source : String) : Except Fault Expr :=
  readItems {} [] [] ⟨{}, [], []⟩ (source.toList.length + 1) source.toList

end TextAnalysis.Pattern
