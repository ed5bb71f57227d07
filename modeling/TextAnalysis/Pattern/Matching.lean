import TextAnalysis.Pattern.Expr

/-!
# Matching

The match of an expression at one place of a text, and the cuts that its successive matches make.
A text is cut from left to right: each cut is the text skipped before a match and the match itself,
and what follows the last match is the rest. An empty match directly at the end of the previous
match is passed over.

A match is found by following all expressions that remain to be matched, in order of preference,
through the text, one character at a time. An expression that ends drops those less preferred.
-/

set_option autoImplicit false

namespace TextAnalysis.Pattern

/-- The leads up to the first end, and whether there is an end. -/
def upToDone : List Lead → List (CharSet × Expr) × Bool
  | [] => ([], false)
  | .done :: _ => ([], true)
  | .read s e :: rest =>
    let (reads, ended) := upToDone rest
    ((s, e) :: reads, ended)

/-- What the expressions alive at a place can read, up to the first that ends there. -/
def frontier (p : Place) : List Expr → List (CharSet × Expr) × Bool
  | [] => ([], false)
  | e :: rest =>
    match upToDone (e.leads p) with
    | (reads, true) => (reads, true)
    | (reads, false) =>
      let (more, ended) := frontier p rest
      (reads ++ more, ended)

/-- The expressions alive after reading `c`, each once. -/
def advance (c : Char) (reads : List (CharSet × Expr)) : List Expr :=
  ((reads.filter fun r => r.1.mem c).map Prod.snd).eraseDups

/-- The length of the preferred match among the expressions alive. `count` characters have been
read, the last of them `before`, and `best` is the preferred match that has ended so far. -/
def run (before : Option Char) (alive : List Expr) (count : Nat) (best : Option Nat) :
    List Char → Option Nat
  | [] => if (frontier ⟨before, none⟩ alive).2 then some count else best
  | c :: rest =>
    let (reads, ended) := frontier ⟨before, some c⟩ alive
    let best := if ended then some count else best
    match advance c reads with
    | [] => best
    | next => run (some c) next (count + 1) best rest

/-- The length of the match of `e` at the start of a text that follows the character `before`. -/
def matchLength (e : Expr) (before : Option Char) (text : List Char) : Option Nat :=
  run before [e] 0 none text

/-- One match and the text skipped before it. -/
structure Cut where
  skipped : List Char
  found : List Char
  deriving DecidableEq, Repr

/-- A text cut at the matches of a pattern. -/
structure Cuts where
  cuts : List Cut
  /-- The text after the last match. -/
  rest : List Char
  deriving DecidableEq, Repr

namespace Cuts

/-- One more cut before the others. -/
def push (skipped found : List Char) (c : Cuts) : Cuts := ⟨⟨skipped, found⟩ :: c.cuts, c.rest⟩

/-- Cuts the rest of a text. `before` is the character before it, `skipped` holds what has been
skipped since the last match, last character first, `ended` tells that a match ends here, and the
first `inside` characters belong to that match. -/
def collect (e : Expr) (before : Option Char) (skipped : List Char) (ended : Bool) (inside : Nat) :
    List Char → Cuts
  | [] =>
    if !ended && matchLength e before [] = some 0 then push skipped.reverse [] ⟨[], []⟩
    else ⟨[], skipped.reverse⟩
  | c :: rest =>
    match inside with
    | more + 1 => collect e (some c) skipped true more rest
    | 0 =>
      match matchLength e before (c :: rest) with
      | some (more + 1) =>
        push skipped.reverse ((c :: rest).take (more + 1)) (collect e (some c) [] true more rest)
      | some 0 =>
        if ended then collect e (some c) [c] false 0 rest
        else push skipped.reverse [] (collect e (some c) [c] false 0 rest)
      | none => collect e (some c) (c :: skipped) false 0 rest

/-- Cuts a text at the matches of an expression. -/
def ofText (e : Expr) (text : List Char) : Cuts := collect e none [] false 0 text

/-- The text that was cut. -/
def text (c : Cuts) : List Char := c.cuts.flatMap (fun cut => cut.skipped ++ cut.found) ++ c.rest

end Cuts

end TextAnalysis.Pattern
