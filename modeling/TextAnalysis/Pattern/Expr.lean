import TextAnalysis.Pattern.CharSet

/-!
# Pattern expressions

The tree of a pattern, and what an expression can do first at a place of a text: end there, or read
one character of a set and continue with another expression. `Expr.leads` lists these in order of
preference, which is all that matching needs.
-/

set_option autoImplicit false

namespace TextAnalysis.Pattern

/-- A place of a text: the characters on both sides, where there are any. -/
structure Place where
  before : Option Char
  after : Option Char
  deriving DecidableEq, Repr

/-- Conditions on a place, which read no character. -/
inductive Assertion where
  | textStart
  | textEnd
  | lineStart
  | lineEnd
  /-- The start of a line where a carriage return and a line feed together end one line. -/
  | lineStartCrlf
  /-- The end of such a line. -/
  | lineEndCrlf
  | wordBoundary (ascii : Bool)
  | notWordBoundary (ascii : Bool)
  | wordStart (ascii : Bool)
  | wordEnd (ascii : Bool)
  /-- No word character before. -/
  | wordStartHalf (ascii : Bool)
  /-- No word character after. -/
  | wordEndHalf (ascii : Bool)
  deriving DecidableEq, Repr

/-- Is there a character, and is it a word character? -/
def isWordSide (ascii : Bool) : Option Char → Bool
  | none => false
  | some c => if ascii then Unicode.isAsciiWord c else Unicode.isWord c

/-- Does the condition hold at the place? -/
def Assertion.holds (p : Place) : Assertion → Bool
  | textStart => p.before.isNone
  | textEnd => p.after.isNone
  | lineStart => p.before.isNone || p.before == some '\n'
  | lineEnd => p.after.isNone || p.after == some '\n'
  | lineStartCrlf =>
    p.before.isNone || p.before == some '\n' || (p.before == some '\r' && p.after != some '\n')
  | lineEndCrlf =>
    p.after.isNone || p.after == some '\r' || (p.after == some '\n' && p.before != some '\r')
  | wordBoundary ascii => isWordSide ascii p.before != isWordSide ascii p.after
  | notWordBoundary ascii => isWordSide ascii p.before == isWordSide ascii p.after
  | wordStart ascii => !isWordSide ascii p.before && isWordSide ascii p.after
  | wordEnd ascii => isWordSide ascii p.before && !isWordSide ascii p.after
  | wordStartHalf ascii => !isWordSide ascii p.before
  | wordEndHalf ascii => !isWordSide ascii p.after

/-- A pattern expression. Of two branches the first is preferred; a greedy loop prefers one more
round to stopping, any other loop the reverse. -/
inductive Expr where
  | empty
  | look (a : Assertion)
  | one (s : CharSet)
  | seq (first second : Expr)
  | alt (first second : Expr)
  | loop (greedy : Bool) (least : Nat) (most : Option Nat) (body : Expr)
  deriving DecidableEq, Repr

/-- What an expression can do first. -/
inductive Lead where
  | done
  | read (s : CharSet) (rest : Expr)
  deriving DecidableEq, Repr

namespace Lead

/-- Does the expression end here? -/
def isDone : Lead → Bool
  | done => true
  | read _ _ => false

/-- The lead of a sequence whose first part has this lead and whose second part is `next`. -/
def followedBy (next : Expr) : Lead → Lead
  | done => done
  | read s .empty => read s next
  | read s rest => read s (.seq rest next)

/-- Puts `next` in place of the first end, and leaves out the later ones, which add nothing. -/
def splice (next : List Lead) : List Lead → List Lead
  | [] => []
  | done :: rest => next ++ rest.filter fun l => !l.isDone
  | read s e :: rest => read s e :: splice next rest

/-- Two lists of leads in order of preference, of which one end is kept. -/
def join (first second : List Lead) : List Lead :=
  if first.any isDone then first ++ second.filter fun l => !l.isDone else first ++ second

end Lead

namespace Expr

/-- A loop, or nothing where no round is left. -/
def rounds (greedy : Bool) (least : Nat) (most : Option Nat) (body : Expr) : Expr :=
  if most = some 0 then .empty else .loop greedy least most body

/-- The leads of a loop with at most `most` rounds, none of which is required. `inside` are the
leads of the body. -/
def boundedLeads (greedy : Bool) (body : Expr) (inside : List Lead) : Nat → List Lead
  | 0 => [.done]
  | most + 1 =>
    let again := inside.map (Lead.followedBy (rounds greedy 0 (some most) body))
    let round :=
      if again.any Lead.isDone then Lead.splice (boundedLeads greedy body inside most) again
      else again
    if greedy then Lead.join round [.done] else Lead.join [.done] round

/-- The leads of a loop. -/
def loopLeads (greedy : Bool) (body : Expr) (inside : List Lead) : Nat → Option Nat → List Lead
  | 0, none =>
    let round := inside.map (Lead.followedBy (.loop greedy 0 none body))
    if greedy then Lead.join round [.done] else Lead.join [.done] round
  | 0, some most => boundedLeads greedy body inside most
  | least + 1, most =>
    let fewer := most.map (· - 1)
    let again := inside.map (Lead.followedBy (rounds greedy least fewer body))
    if again.any Lead.isDone then Lead.splice (loopLeads greedy body inside least fewer) again
    else again

/-- What the expression can do first at a place, the preferred first. -/
def leads (p : Place) : Expr → List Lead
  | empty => [.done]
  | look a => if a.holds p then [.done] else []
  | one s => [.read s .empty]
  | seq first second =>
    let front := (leads p first).map (Lead.followedBy second)
    if front.any Lead.isDone then Lead.splice (leads p second) front else front
  | alt first second => Lead.join (leads p first) (leads p second)
  | loop greedy least most body => loopLeads greedy body (leads p body) least most

/-- The expressions of a list one after the other. -/
def seqOf : List Expr → Expr
  | [] => .empty
  | [e] => e
  | e :: rest => .seq e (seqOf rest)

/-- The expressions of a list as branches. -/
def altOf : List Expr → Expr
  | [] => .empty
  | [e] => e
  | e :: rest => .alt e (altOf rest)

end Expr

end TextAnalysis.Pattern
