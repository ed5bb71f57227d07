import TextAnalysis.Pattern.Matching
import TextAnalysis.Pattern.Reader

/-!
# Patterns

A pattern is a text together with the expression that it reads as. Since the text determines the
expression, two patterns with one text are equal.
-/

set_option autoImplicit false

namespace TextAnalysis

/-- A pattern and its written form. -/
structure Pattern where
  source : String
  expr : Pattern.Expr
  /-- The expression is the one that the text reads as. -/
  reads : Pattern.readPattern source = .ok expr

namespace Pattern

/-- Reads a pattern. -/
def ofSource (source : String) : Except Fault Pattern :=
  match h : readPattern source with
  | .ok expr => .ok ⟨source, expr, h⟩
  | .error fault => .error fault

/-- A pattern that reads is the pattern of its text. -/
theorem ofSource_eq_ok {source : String} {expr : Expr} (h : readPattern source = .ok expr) :
    ofSource source = .ok ⟨source, expr, h⟩ := by
  unfold ofSource
  split
  · next read hread =>
    have hexpr : read = expr := Except.ok.inj (hread.symm.trans h)
    simp only [hexpr]
  · next fault hfault => cases hfault.symm.trans h

/-- Patterns with the same source are the same. -/
theorem ext_source {p q : Pattern} (h : p.source = q.source) : p = q := by
  obtain ⟨s, e, he⟩ := p
  obtain ⟨t, d, hd⟩ := q
  cases h
  rw [he] at hd
  cases hd
  rfl

instance : DecidableEq Pattern := fun p q =>
  if h : p.source = q.source then isTrue (ext_source h)
  else isFalse fun e => h (congrArg source e)

/-- Cuts a text at the matches of the pattern. -/
def cut (p : Pattern) (text : List Char) : Cuts := Cuts.ofText p.expr text

end Pattern

end TextAnalysis
