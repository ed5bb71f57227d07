import TextAnalysis.Pattern
import TextAnalysis.Stream

/-!
# Tokenizers

A tokenizer cuts a text into pieces. By a pattern: its matches, or the gaps between them; by a
pattern for segments: the text up to the end of each segment; by a character map: the replaced
runs between breaks; or not at all. Each piece becomes a token, annotated as the options ask.
-/

set_option autoImplicit false

namespace TextAnalysis

/-- A tokenizer. -/
inductive Tokenizer where
  /-- The matches of a pattern, or the gaps between them. -/
  | regex (p : Pattern) (gaps : Bool)
  /-- For each match of a pattern, the text up to its end. -/
  | path (segment : Pattern)
  /-- The runs of characters that a map does not take for breaks, with their replacements. -/
  | charset (m : CharMap)
  /-- The whole text. -/
  | whole
  deriving DecidableEq

/-- A piece of a text: the text of the token to be made of it, and where it starts and ends, in
bytes. -/
structure Piece where
  text : List Char
  first : Nat
  last : Nat
  deriving DecidableEq, Repr

namespace Piece

/-- The matches among the cuts of a text that starts at `offset`. -/
def matchesFrom (offset : Nat) : List Pattern.Cut → List Piece
  | [] => []
  | c :: rest =>
    let first := offset + Text.byteLength c.skipped
    let last := first + Text.byteLength c.found
    ⟨c.found, first, last⟩ :: matchesFrom last rest

/-- The piece of a text that starts at `offset`, unless it is empty. -/
def gapAt (offset : Nat) (text : List Char) : List Piece :=
  if text.isEmpty then [] else [⟨text, offset, offset + Text.byteLength text⟩]

/-- The gaps among the cuts of a text that starts at `offset`, the rest behind them included. -/
def gapsFrom (offset : Nat) (trailing : List Char) : List Pattern.Cut → List Piece
  | [] => gapAt offset trailing
  | c :: rest =>
    let first := offset + Text.byteLength c.skipped
    gapAt offset c.skipped ++ gapsFrom (first + Text.byteLength c.found) trailing rest

/-- The text up to the end of each match. `before` is the text before the cuts, last character
first, and `length` its length in bytes. -/
def segmentEnds (before : List Char) (length : Nat) : List Pattern.Cut → List Piece
  | [] => []
  | c :: rest =>
    let upTo := c.found.reverse ++ (c.skipped.reverse ++ before)
    let last := length + Text.byteLength c.skipped + Text.byteLength c.found
    ⟨upTo.reverse, 0, last⟩ :: segmentEnds upTo last rest

/-- The runs between breaks in a text that starts at `offset`. `run` is the run being read, last
character first, with its start. -/
def runsFrom (m : CharMap) (offset : Nat) (run : Option (Nat × List Char)) :
    List Char → List Piece
  | [] =>
    match run with
    | some (first, text) => [⟨text.reverse, first, offset⟩]
    | none => []
  | c :: rest =>
    match m.replace? c, run with
    | some image, some (first, text) =>
      runsFrom m (offset + c.utf8Size) (some (first, image.reverse ++ text)) rest
    | some image, none => runsFrom m (offset + c.utf8Size) (some (offset, image.reverse)) rest
    | none, some (first, text) =>
      ⟨text.reverse, first, offset⟩ :: runsFrom m (offset + c.utf8Size) none rest
    | none, none => runsFrom m (offset + c.utf8Size) none rest

/-- A text as one piece. -/
def ofWhole (text : List Char) : Piece := ⟨text, 0, Text.byteLength text⟩

/-- The update that makes a token of a piece, the one at place `index` among the pieces. -/
def update (o : Options) (index : Nat) (p : Piece) : Update :=
  .load (String.ofList p.text) o.keepUnfiltered
    (if o.positions then some (Saturating.add o.firstPosition index) else none)
    (if o.offsets then
      some (Saturating.add o.firstOffset p.first, Saturating.add o.firstOffset p.last)
    else none)

/-- The updates for the pieces from place `index` on. -/
def updatesFrom (o : Options) (index : Nat) : List Piece → List Update
  | [] => []
  | p :: rest => p.update o index :: updatesFrom o (index + 1) rest

end Piece

namespace Tokenizer

/-- The name of the kind of tokenizer. -/
def name : Tokenizer → String
  | regex _ _ => "regex"
  | path _ => "path"
  | charset _ => "charset"
  | whole => "id"

/-- The pieces of a text. -/
def pieces (t : Tokenizer) (text : List Char) : List Piece :=
  match t with
  | regex p false => Piece.matchesFrom 0 (p.cut text).cuts
  | regex p true => Piece.gapsFrom 0 (p.cut text).rest (p.cut text).cuts
  | path p => Piece.segmentEnds [] 0 (p.cut text).cuts
  | charset m => Piece.runsFrom m 0 none text
  | whole => if text.isEmpty then [] else [Piece.ofWhole text]

/-- The stream of a text. An empty text gives no token. -/
def tokenize (t : Tokenizer) (o : Options) (text : String) : Stream :=
  let t := if o.tokenize then t else whole
  if text.isEmpty && t ≠ whole then {}
  else { record := .ofOptions o, pending := Piece.updatesFrom o 0 (t.pieces text.toList) }

/-- The pattern that the regular tokenizer uses: words, which single dots may join. -/
def wordPattern : String := "\\w+(\\.?\\w+)*"

/-- The tokenizer for the matches of a pattern. -/
def ofPattern (source : String) (gaps : Bool) : Except Failure Tokenizer :=
  match Pattern.ofSource source with
  | .ok p => .ok (.regex p gaps)
  | .error fault => .error (.stage (.pattern fault))

/-- The tokenizer for words. -/
def words : Except Failure Tokenizer := ofPattern wordPattern false

/-- The tokenizer for texts between blanks and line ends. -/
def spaceSeparated : Except Failure Tokenizer := ofPattern "[^ \\t\\r\\n]+" false

/-- The tokenizer for texts between commas. -/
def betweenCommas : Except Failure Tokenizer := ofPattern "[^,]+" false

/-- The tokenizer for paths whose segments match a pattern. -/
def ofSegments (source : String) : Except Failure Tokenizer :=
  match Pattern.ofSource source with
  | .ok p => .ok (.path p)
  | .error fault => .error (.stage (.segment fault))

/-- The tokenizer for paths whose segments stand between slashes. -/
def paths : Except Failure Tokenizer := ofSegments "[^/]+"

/-- The pattern for segments that stand between a delimiter. -/
def segmentsBetween (delimiter : Char) : String :=
  String.ofList ('[' :: '^' :: (Pattern.escape delimiter ++ [']', '+']))

/-- The tokenizer for paths whose segments stand between a delimiter. -/
def pathsWith (delimiter : Char) : Except Failure Tokenizer :=
  ofSegments (segmentsBetween delimiter)

end Tokenizer

end TextAnalysis
