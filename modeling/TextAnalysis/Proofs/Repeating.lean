import Mathlib.Data.List.TakeWhile
import TextAnalysis.Proofs.Searching

/-!
# Patterns that repeat a set of characters

A pattern that takes one or more characters of a set, as many as it can, matches a text in its runs
of such characters. At a character of the set it matches the longest beginning of what is left that
consists of these characters (`matchLength_atLeastOne_of_mem`), and nowhere else; so a match ends where
its run ends, and no match begins inside a run.

Main statement: `cuts_atLeastOne`, that the cuts of a text are at its runs.
-/

set_option autoImplicit false

namespace TextAnalysis

open Text (Span byteLength)

namespace Pattern

/-- The expression that takes one or more characters of a set, as many as it can. -/
def atLeastOne (s : CharSet) : Expr := .loop true 1 none (.one s)

/-- What is left of it once it has taken a character. -/
def anyNumber (s : CharSet) : Expr := .loop true 0 none (.one s)

variable (s : CharSet)

/-- Before its first character the expression offers the characters of the set, and may not end. -/
theorem frontier_atLeastOne (p : Place) :
    frontier p [atLeastOne s] = ([(s, anyNumber s)], false) :=
  rfl

/-- Behind it, it offers them again, and may end. -/
theorem frontier_anyNumber (p : Place) :
    frontier p [anyNumber s] = ([(s, anyNumber s)], true) :=
  rfl

/-- A character of the set takes it on, and another one takes it nowhere. -/
theorem advance_anyNumber (c : Char) :
    advance c [(s, anyNumber s)] = if s.mem c then [anyNumber s] else [] := by
  cases hc : s.mem c with
  | true => simp [advance, hc, List.eraseDups_cons]
  | false => simp [advance, hc]

/-- Once it has taken a character, the expression takes all those of the set that follow. -/
theorem run_anyNumber (before : Option Char) (count : Nat) (best : Option Nat) (text : List Char) :
    run before [anyNumber s] count best text = some (count + (text.takeWhile s.mem).length) := by
  induction text generalizing before count best with
  | nil => rfl
  | cons c rest ih =>
    rw [run, frontier_anyNumber]
    simp only [advance_anyNumber]
    cases hc : s.mem c with
    | true =>
      rw [List.takeWhile_cons_of_pos hc, List.length_cons]
      simp only [if_true, ih]
      congr 1
      omega
    | false =>
      rw [List.takeWhile_cons_of_neg (by rw [hc]; exact Bool.false_ne_true)]
      rfl

/-- The expression matches nothing at a character that is not of the set, or at the end. -/
theorem matchLength_atLeastOne_nil (before : Option Char) :
    matchLength (atLeastOne s) before [] = none :=
  rfl

/-- Nothing is matched where the first character is not of the set. -/
theorem matchLength_atLeastOne_of_not_mem {c : Char} (hc : s.mem c = false) (before : Option Char)
    (rest : List Char) : matchLength (atLeastOne s) before (c :: rest) = none := by
  rw [matchLength, run, frontier_atLeastOne]
  simp only [advance_anyNumber, hc]
  rfl

/-- At a character of the set it matches the longest beginning that consists of such characters. -/
theorem matchLength_atLeastOne_of_mem {c : Char} (hc : s.mem c = true) (before : Option Char)
    (rest : List Char) :
    matchLength (atLeastOne s) before (c :: rest) =
      some ((rest.takeWhile s.mem).length + 1) := by
  rw [matchLength, run, frontier_atLeastOne]
  simp only [advance_anyNumber, hc, if_true, run_anyNumber]
  rw [Nat.zero_add, Nat.add_comm]

/-- The expression matches exactly where a character of the set stands. -/
theorem beginsWith_atLeastOne : BeginsWith (atLeastOne s) s.mem := by
  intro before text
  cases text with
  | nil => simp [matchLength_atLeastOne_nil]
  | cons c rest =>
    cases hc : s.mem c with
    | false => simp [matchLength_atLeastOne_of_not_mem s hc, hc]
    | true => simp [matchLength_atLeastOne_of_mem s hc, hc]

/-- It does not match the empty text. -/
theorem neverEmpty_atLeastOne : NeverEmpty (atLeastOne s) := by
  intro before text
  cases text with
  | nil => simp [matchLength_atLeastOne_nil]
  | cons c rest =>
    cases hc : s.mem c with
    | false => simp [matchLength_atLeastOne_of_not_mem s hc]
    | true => simp [matchLength_atLeastOne_of_mem s hc]

/-! ## Runs -/

variable {s}

/-- A match holds characters of the set, and is not followed by another one. -/
theorem IsMatch.of_atLeastOne {text : List Char} {found : Span text}
    (h : IsMatch (atLeastOne s) found) :
    found.inside ≠ [] ∧ (∀ c ∈ found.inside, s.mem c = true) ∧
      ∀ c ∈ found.after.head?, s.mem c = false := by
  rw [IsMatch] at h
  cases hinside : found.inside with
  | nil =>
    rw [hinside] at h
    exact absurd h (neverEmpty_atLeastOne s _ _)
  | cons c inside =>
    rw [hinside, List.cons_append] at h
    have hc : s.mem c = true := by
      by_contra hfalse
      rw [matchLength_atLeastOne_of_not_mem s (Bool.eq_false_iff.mpr hfalse)] at h
      cases h
    rw [matchLength_atLeastOne_of_mem s hc, List.length_cons] at h
    have hparts := List.takeWhile_append_dropWhile (p := s.mem) (l := inside ++ found.after)
    obtain ⟨htake, hdrop⟩ := List.append_inj hparts (Nat.succ.inj (Option.some.inj h))
    refine ⟨List.cons_ne_nil c inside, List.forall_mem_cons.mpr ⟨hc, fun d hd => ?_⟩, fun d hd => ?_⟩
    · rw [← htake] at hd
      exact List.mem_takeWhile_imp hd
    · have hhead := List.head?_dropWhile_not s.mem (inside ++ found.after)
      rw [hdrop, hd] at hhead
      simpa using hhead

/-- A search for the expression finds the runs of a text. -/
theorem FindsFrom.runsFrom {text : List Char} {found : List (Span text)}
    (h : FindsFrom (atLeastOne s) text 0 found) : Span.RunsFrom s.mem text 0 found := by
  have hbegins := beginsWith_atLeastOne s
  have hstop : ∀ f ∈ found, ¬ Text.IsAt s.mem text f.stop := fun f hf =>
    f.not_isAt_stop (h.isMatch f hf).of_atLeastOne.2.2
  have hordered := hbegins.ordered h hstop
  have hcovers {i : Nat} (hi : Text.IsAt s.mem text i) :
      ∃ f ∈ found, f.before.length ≤ i ∧ i < f.stop :=
    h.covers i (Nat.zero_le i) (hbegins.beginsAt_iff.mpr hi)
  have hruns : ∀ f ∈ found, f.IsRun s.mem := by
    intro f hf
    obtain ⟨hne, hinside, hafter⟩ := (h.isMatch f hf).of_atLeastOne
    refine ⟨hne, hinside, fun c hc => Bool.eq_false_iff.mpr fun htrue => ?_, hafter⟩
    -- the character in front would be part of a match that touches this one
    obtain ⟨front, hfront⟩ := List.getLast?_eq_some_iff.mp hc
    have hlength : f.before.length = front.length + 1 := by simp [hfront]
    have hat : text[front.length]? = some c := by
      rw [← f.parts, hfront]
      simp
    obtain ⟨f', hf', hi, hlt⟩ := hcovers ⟨c, hat, htrue⟩
    have hother : f' ≠ f := by
      rintro rfl
      omega
    rcases Span.apart_of_ordered hordered hf' hf hother with hapart | hapart
    · omega
    · rw [Span.stop] at hapart
      omega
  refine ⟨fun r => ⟨fun hr => ⟨hruns r hr, Nat.zero_le _⟩, fun hr => ?_⟩,
    hordered.imp Span.last_lt_first⟩
  obtain ⟨f, hf, hi, hlt⟩ := hcovers (hr.1.isAt (Nat.le_refl _) hr.1.before_lt_stop)
  rcases (hruns f hf).eq_or_stop_lt hr.1 hi with rfl | hapart
  · exact hf
  · omega

/-- The cuts of a text are at its runs of characters of the set. -/
theorem cuts_atLeastOne (s : CharSet) (text : List Char) :
    ∃ runs : List (Span text),
      Cuts.Finds [] (Cuts.ofText (atLeastOne s) text).cuts runs ∧
        Span.RunsFrom s.mem text 0 runs := by
  obtain ⟨runs, hfinds, hfound⟩ := exists_finds (neverEmpty_atLeastOne s) text
  exact ⟨runs, hfinds, hfound.runsFrom⟩

end Pattern

end TextAnalysis
