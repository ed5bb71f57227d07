import TextAnalysis.Proofs.Repeating

/-!
# Words that single dots join

The pattern for words takes a run of word characters, and goes on over a dot where another run
begins directly behind it. However it may try, what it takes is decided by the two characters in
front of it (`Joins`): a word character is taken, a dot together with the word character behind it
is taken, and anything else ends the match. So a token holds runs with single dots between them
(`Text.Joined`), and where it ends the text does not go on like this.

Main statement: `word_tokens_join_runs`, the tokens of the pattern for words in terms of the runs of
word characters.
-/

set_option autoImplicit false

namespace TextAnalysis

open Text (Span byteLength)

/-! ## What the pattern takes -/

namespace Pattern

/-- The expression for runs of characters of a set that single joiners may join. -/
def joinedRuns (s : CharSet) (j : Char) : Expr :=
  .seq (atLeastOne s)
    (.loop true 0 none (.seq (.loop true 0 (some 1) (.one (.single j))) (atLeastOne s)))

/-- What is left of it once it has taken a character of the set. -/
def furtherRuns (s : CharSet) (j : Char) : Expr :=
  .seq (anyNumber s)
    (.loop true 0 none (.seq (.loop true 0 (some 1) (.one (.single j))) (atLeastOne s)))

/-- The pattern of words reads as runs of word characters that dots join. -/
theorem readPattern_wordPattern :
    readPattern Tokenizer.wordPattern = .ok (joinedRuns (.named .word) '.') := by
  decide

variable {s : CharSet} {j : Char}

/-- Before a joined run, a character of the set is due. -/
theorem frontier_joinedRuns (p : Place) :
    frontier p [joinedRuns s j] = ([(s, furtherRuns s j)], false) :=
  rfl

/-- Within it, another one is, or the joining character, or it may end. -/
theorem frontier_furtherRuns (p : Place) :
    frontier p [furtherRuns s j] =
      ([(s, furtherRuns s j), (.single j, joinedRuns s j), (s, furtherRuns s j)], true) :=
  rfl

/-- A joined run begins with a character of the set and with no other. -/
theorem advance_joinedRuns (c : Char) :
    advance c [(s, furtherRuns s j)] = if s.mem c then [furtherRuns s j] else [] := by
  cases hc : s.mem c <;> simp [advance, hc, List.eraseDups_cons]

/-- Behind a run a character of the set goes on with it, and a joiner asks for the next one. -/
theorem advance_furtherRuns (hj : s.mem j = false) (c : Char) :
    advance c [(s, furtherRuns s j), (.single j, joinedRuns s j), (s, furtherRuns s j)] =
      if s.mem c then [furtherRuns s j] else if c = j then [joinedRuns s j] else [] := by
  cases hc : s.mem c with
  | true =>
    have hne : c ≠ j := by
      rintro rfl
      rw [hj] at hc
      cases hc
    simp [advance, hc, CharSet.mem_single, hne, List.eraseDups_cons]
  | false =>
    by_cases hne : c = j <;> simp [advance, hc, CharSet.mem_single, hne, List.eraseDups_cons, hj]

/-- Behind a character of the set `taken` is what the expression takes of a text, and `rest` what it
leaves. -/
inductive Joins (s : CharSet) (j : Char) : List Char → List Char → Prop
  | stop {rest : List Char} (hnext : ∀ c ∈ rest.head?, s.mem c = false)
    (hjoin : ∀ d more, rest = j :: d :: more → s.mem d = false) : Joins s j [] rest
  | run {c : Char} {taken rest : List Char} (hc : s.mem c = true) (h : Joins s j taken rest) :
    Joins s j (c :: taken) rest
  | join {d : Char} {taken rest : List Char} (hd : s.mem d = true) (h : Joins s j taken rest) :
    Joins s j (j :: d :: taken) rest

namespace Joins

variable {taken rest : List Char}

/-- At the start of any text, as much as possible can be taken. -/
theorem exists_of_text (s : CharSet) (j : Char) (text : List Char) :
    ∃ taken rest, taken ++ rest = text ∧ Joins s j taken rest := by
  induction hlength : text.length using Nat.strongRecOn generalizing text with
  | _ n ih =>
    match text with
    | [] => exact ⟨[], [], rfl, .stop (by simp) (by simp)⟩
    | c :: behind =>
      rw [List.length_cons] at hlength
      cases hc : s.mem c with
      | true =>
        obtain ⟨taken, rest, hparts, h⟩ := ih behind.length (by omega) behind rfl
        exact ⟨c :: taken, rest, congrArg (c :: ·) hparts, .run hc h⟩
      | false =>
        by_cases hjoin : ∃ d more, c :: behind = j :: d :: more ∧ s.mem d = true
        · obtain ⟨d, more, heq, hd⟩ := hjoin
          obtain ⟨rfl, rfl⟩ := List.cons.inj heq
          rw [List.length_cons] at hlength
          obtain ⟨taken, rest, hparts, h⟩ := ih more.length (by omega) more rfl
          exact ⟨c :: d :: taken, rest, congrArg (c :: d :: ·) hparts, .join hd h⟩
        · refine ⟨[], c :: behind, rfl, .stop (by simpa using hc) fun d more heq => ?_⟩
          exact Bool.eq_false_iff.mpr fun hd => hjoin ⟨d, more, heq, hd⟩

/-- Whatever else the search has tried on the way, this is the match that it prefers. -/
theorem run_furtherRuns (hj : s.mem j = false) (h : Joins s j taken rest) (before : Option Char)
    (count : Nat) (best : Option Nat) :
    Pattern.run before [furtherRuns s j] count best (taken ++ rest) =
      some (count + taken.length) := by
  induction h generalizing before count best with
  | @stop rest hnext hjoin =>
    cases rest with
    | nil => rfl
    | cons c rest =>
      have hc : s.mem c = false := hnext c rfl
      rw [List.nil_append, Pattern.run, frontier_furtherRuns]
      simp only [advance_furtherRuns hj, hc, Bool.false_eq_true, if_false, if_true]
      by_cases hne : c = j
      · rw [if_pos hne]
        -- behind the joiner the search goes on for one step at most, in vain
        cases rest with
        | nil => rfl
        | cons d more =>
          have hd : s.mem d = false := hjoin d more (by rw [hne])
          dsimp only
          rw [Pattern.run, frontier_joinedRuns]
          simp only [advance_joinedRuns, hd]
          rfl
      · rw [if_neg hne]
        rfl
  | run hc h ih =>
    rw [List.cons_append, Pattern.run, frontier_furtherRuns]
    simp only [advance_furtherRuns hj, hc, if_true, ih, List.length_cons]
    congr 1
    omega
  | join hd h ih =>
    rw [List.cons_append, Pattern.run, frontier_furtherRuns]
    simp only [advance_furtherRuns hj, hj, Bool.false_eq_true, if_false, if_true]
    rw [List.cons_append, Pattern.run, frontier_joinedRuns]
    simp only [advance_joinedRuns, hd, if_true, ih, List.length_cons]
    congr 1
    omega

end Joins

/-- No match begins with a character outside the set. -/
theorem matchLength_joinedRuns_of_not_mem {c : Char} (hc : s.mem c = false)
    (before : Option Char) (rest : List Char) :
    matchLength (joinedRuns s j) before (c :: rest) = none := by
  rw [matchLength, run, frontier_joinedRuns]
  simp only [advance_joinedRuns, hc]
  rfl

/-- A match takes its first character and as much as can be joined to it. -/
theorem matchLength_joinedRuns_of_mem (hj : s.mem j = false) {c : Char} (hc : s.mem c = true)
    {taken rest : List Char} (h : Joins s j taken rest) (before : Option Char) :
    matchLength (joinedRuns s j) before (c :: (taken ++ rest)) = some (taken.length + 1) := by
  rw [matchLength, run, frontier_joinedRuns]
  simp only [advance_joinedRuns, hc, if_true, h.run_furtherRuns hj]
  rw [Nat.zero_add, Nat.add_comm]

/-- Matches begin exactly at characters of the set. -/
theorem beginsWith_joinedRuns (hj : s.mem j = false) : BeginsWith (joinedRuns s j) s.mem := by
  intro before text
  cases text with
  | nil => simp [matchLength, run, frontier_joinedRuns]
  | cons c rest =>
    cases hc : s.mem c with
    | false => simp [matchLength_joinedRuns_of_not_mem hc, hc]
    | true =>
      obtain ⟨taken, left, rfl, h⟩ := Joins.exists_of_text s j rest
      simp [matchLength_joinedRuns_of_mem hj hc h, hc]

/-- Matches are not empty. -/
theorem neverEmpty_joinedRuns (hj : s.mem j = false) : NeverEmpty (joinedRuns s j) := by
  intro before text
  cases text with
  | nil => exact nofun
  | cons c rest =>
    cases hc : s.mem c with
    | false =>
      rw [matchLength_joinedRuns_of_not_mem hc]
      exact nofun
    | true =>
      obtain ⟨taken, left, rfl, h⟩ := Joins.exists_of_text s j rest
      rw [matchLength_joinedRuns_of_mem hj hc h]
      simp

end Pattern

/-! ## Runs that are joined -/

namespace Text

/-- Characters with a property, any two of which may have a single joiner between them. -/
inductive Joined (p : Char → Bool) (j : Char) : List Char → Prop
  | single {c : Char} (hc : p c = true) : Joined p j [c]
  | cons {c : Char} {rest : List Char} (hc : p c = true) (h : Joined p j rest) :
    Joined p j (c :: rest)
  | join {c : Char} {rest : List Char} (hc : p c = true) (h : Joined p j rest) :
    Joined p j (c :: j :: rest)

namespace Joined

variable {p : Char → Bool} {j : Char} {cs : List Char}

/-- What is joined begins with a character of a run. -/
theorem exists_cons (h : Joined p j cs) : ∃ c rest, cs = c :: rest ∧ p c = true := by
  cases h with
  | single hc => exact ⟨_, _, rfl, hc⟩
  | cons hc _ => exact ⟨_, _, rfl, hc⟩
  | join hc _ => exact ⟨_, _, rfl, hc⟩

/-- So a run begins at its start. -/
theorem isAt_zero (h : Joined p j cs) : IsAt p cs 0 := by
  obtain ⟨c, rest, rfl, hc⟩ := h.exists_cons
  exact ⟨c, rfl, hc⟩

/-- A character without the property is a joiner, and one with the property follows it. -/
theorem isAt_succ_of_not_isAt (h : Joined p j cs) {k : Nat} (hlt : k < cs.length)
    (hk : ¬ IsAt p cs k) : cs[k]? = some j ∧ IsAt p cs (k + 1) := by
  induction h generalizing k with
  | single hc =>
    obtain rfl : k = 0 := by simpa using hlt
    exact absurd ⟨_, rfl, hc⟩ hk
  | cons hc h ih =>
    cases k with
    | zero => exact absurd ⟨_, rfl, hc⟩ hk
    | succ k => exact ih (Nat.lt_of_succ_lt_succ hlt) hk
  | join hc h ih =>
    match k with
    | 0 => exact absurd ⟨_, rfl, hc⟩ hk
    | 1 => exact ⟨rfl, h.isAt_zero⟩
    | k + 2 => exact ih (Nat.lt_of_succ_lt_succ (Nat.lt_of_succ_lt_succ hlt)) hk

/-- What is joined does not begin with the joining character, -/
theorem head?_ne (hj : p j = false) (h : Joined p j cs) : cs.head? ≠ some j := by
  obtain ⟨c, rest, rfl, hc⟩ := h.exists_cons
  rintro heq
  obtain rfl : c = j := Option.some.inj heq
  rw [hj] at hc
  cases hc

/-- Behind a joiner there is a character that is none. -/
theorem isAt_succ_of_eq (hj : p j = false) (h : Joined p j cs) {k : Nat} (hk : cs[k]? = some j) :
    IsAt p cs (k + 1) := by
  refine (h.isAt_succ_of_not_isAt (List.getElem?_eq_some_iff.mp hk).1 ?_).2
  rintro ⟨c, hc, htrue⟩
  obtain rfl : j = c := Option.some.inj (hk.symm.trans hc)
  rw [hj] at htrue
  cases htrue

/-- does not end with it, -/
theorem getLast?_ne (hj : p j = false) (h : Joined p j cs) : cs.getLast? ≠ some j := by
  intro hlast
  rw [List.getLast?_eq_getElem?] at hlast
  obtain ⟨c, hc, -⟩ := h.isAt_succ_of_eq hj hlast
  obtain ⟨hlt, -⟩ := List.getElem?_eq_some_iff.mp hc
  omega

/-- and does not hold it twice in a row. -/
theorem not_infix (hj : p j = false) (h : Joined p j cs) : ¬ [j, j] <:+: cs := by
  rintro ⟨before, after, rfl⟩
  have hfirst : (before ++ [j, j] ++ after)[before.length]? = some j := by simp
  obtain ⟨c, hc, htrue⟩ := h.isAt_succ_of_eq hj hfirst
  have hsecond : (before ++ [j, j] ++ after)[before.length + 1]? = some j := by simp
  obtain rfl : j = c := Option.some.inj (hsecond.symm.trans hc)
  rw [hj] at htrue
  cases htrue

end Joined

namespace Span

variable {text : List Char} {p : Char → Bool} {j : Char}

/-- The first span lies inside the second one. -/
def Within (r s : Span text) : Prop := s.before.length ≤ r.before.length ∧ r.stop ≤ s.stop

/-- The span holds joined runs, as many as there are: where it ends, they do not go on. -/
structure IsJoined (p : Char → Bool) (j : Char) (s : Span text) : Prop where
  inside : Joined p j s.inside
  after : ∀ c ∈ s.after.head?, p c = false
  apart : ∀ d rest, s.after = j :: d :: rest → p d = false

namespace IsJoined

variable {s : Span text}

/-- No run begins where a maximal span ends. -/
theorem not_isAt_stop (h : s.IsJoined p j) : ¬ IsAt p text s.stop :=
  Span.not_isAt_stop s h.after

/-- Where the span ends, no joiner with another run behind it follows. -/
theorem not_isAt_stop_succ (h : s.IsJoined p j) (hstop : text[s.stop]? = some j) :
    ¬ IsAt p text (s.stop + 1) := by
  rintro ⟨d, hd, htrue⟩
  rw [← Nat.add_zero s.stop, s.getElem?_stop_add] at hstop
  rw [s.getElem?_stop_add] at hd
  match hafter : s.after with
  | [] => simp [hafter] at hstop
  | [_] => simp [hafter] at hd
  | c :: d' :: rest =>
    rw [hafter] at hstop hd
    obtain rfl : c = j := Option.some.inj hstop
    obtain rfl : d' = d := Option.some.inj hd
    rw [h.apart d' rest hafter] at htrue
    cases htrue

/-- Inside the span, a character that is of no run is a joiner, and a run follows it there. -/
theorem of_not_isAt (h : s.IsJoined p j) {i : Nat} (hi : s.before.length ≤ i) (hlt : i < s.stop)
    (hnot : ¬ IsAt p text i) : text[i]? = some j ∧ i + 1 < s.stop ∧ IsAt p text (i + 1) := by
  have hlength : i - s.before.length < s.inside.length := by
    rw [stop] at hlt
    omega
  rw [IsAt, s.getElem?_inside hi hlt] at hnot
  obtain ⟨hjoiner, hnext⟩ := h.inside.isAt_succ_of_not_isAt hlength hnot
  obtain ⟨d, hd, htrue⟩ := hnext
  have hlt' : i + 1 < s.stop := by
    obtain ⟨hbound, -⟩ := List.getElem?_eq_some_iff.mp hd
    rw [stop]
    omega
  have hsub : i + 1 - s.before.length = i - s.before.length + 1 := by omega
  refine ⟨(s.getElem?_inside hi hlt).trans hjoiner, hlt', d, ?_, htrue⟩
  rwa [s.getElem?_inside (by omega) hlt', hsub]

/-- A run that has a character in the span lies inside it. -/
theorem within_of_isRun (h : s.IsJoined p j) {r : Span text} (hr : r.IsRun p)
    (hi : s.before.length ≤ r.before.length) (hlt : r.before.length < s.stop) : r.Within s := by
  refine ⟨hi, Nat.le_of_not_lt fun hstop => h.not_isAt_stop ?_⟩
  exact hr.isAt (Nat.le_of_lt hlt) hstop

end IsJoined

/-- The spans hold the joined runs of a text: they come in order and do not touch, and every
character of a run is in one of them. -/
structure JoinRuns (p : Char → Bool) (j : Char) (text : List Char) (found : List (Span text)) :
    Prop where
  isJoined : ∀ s ∈ found, s.IsJoined p j
  ordered : found.Pairwise fun s s' => s.stop < s'.before.length
  covers : ∀ i, IsAt p text i → ∃ s ∈ found, s.before.length ≤ i ∧ i < s.stop

namespace JoinRuns

variable {found : List (Span text)}

/-- Only one of the spans has a given character. -/
theorem eq_of_mem (h : JoinRuns p j text found) {s s' : Span text} (hs : s ∈ found)
    (hs' : s' ∈ found) {i : Nat} (hi : s.before.length ≤ i ∧ i < s.stop)
    (hi' : s'.before.length ≤ i ∧ i < s'.stop) : s = s' := by
  by_contra hne
  rcases apart_of_ordered h.ordered hs hs' hne with hlt | hlt <;> omega

/-- Every run lies inside one of the spans, and no other span has anything of it. -/
theorem existsUnique_within (h : JoinRuns p j text found) {r : Span text} (hr : r.IsRun p) :
    ∃! s, s ∈ found ∧ r.Within s := by
  have hstart := hr.before_lt_stop
  obtain ⟨s, hs, hi, hlt⟩ := h.covers r.before.length (hr.isAt (Nat.le_refl _) hstart)
  refine ⟨s, ⟨hs, (h.isJoined s hs).within_of_isRun hr hi hlt⟩, ?_⟩
  rintro s' ⟨hs', hfirst, hlast⟩
  exact h.eq_of_mem hs' hs ⟨hfirst, by omega⟩ ⟨hi, hlt⟩

/-- Two runs with nothing of a third one between them lie in one span exactly where a joiner alone
stands between them. -/
theorem exists_within_iff (h : JoinRuns p j text found) {r r' : Span text}
    (hr : r.IsRun p) (hr' : r'.IsRun p) {between : List Char}
    (hparts : r.before ++ r.inside ++ between = r'.before) (hbetween : ∀ c ∈ between, p c = false) :
    (∃ s ∈ found, r.Within s ∧ r'.Within s) ↔ between = [j] := by
  have hstart : r'.before.length = r.stop + between.length := by
    rw [← hparts, List.length_append, List.length_append, stop]
  have hafter : r.after = between ++ (r'.inside ++ r'.after) := by
    have hsame : r.before ++ r.inside ++ r.after =
        r.before ++ r.inside ++ (between ++ (r'.inside ++ r'.after)) := by
      rw [r.parts, ← List.append_assoc, hparts, ← List.append_assoc, r'.parts]
    exact List.append_cancel_left hsame
  have hlt' := hr'.before_lt_stop
  have hfirst : IsAt p text r'.before.length := hr'.isAt (Nat.le_refl _) hlt'
  have hstop := r.not_isAt_stop hr.after
  constructor
  · rintro ⟨s, hs, hwithin, hwithin'⟩
    obtain ⟨hjoiner, -, hnext⟩ := (h.isJoined s hs).of_not_isAt (i := r.stop)
      (hwithin.1.trans (Nat.le_add_right _ _)) (by have := hwithin'.2; omega) hstop
    obtain ⟨d, hd, htrue⟩ := hnext
    rw [← Nat.add_zero r.stop, r.getElem?_stop_add, hafter] at hjoiner
    rw [r.getElem?_stop_add, hafter] at hd
    cases between with
    | nil =>
      rw [hstart] at hfirst
      exact absurd hfirst hstop
    | cons c rest =>
      obtain rfl : c = j := Option.some.inj hjoiner
      cases rest with
      | nil => rfl
      | cons d' rest =>
        obtain rfl : d' = d := Option.some.inj hd
        rw [hbetween d' (by simp)] at htrue
        cases htrue
  · rintro rfl
    have hjoiner : text[r.stop]? = some j := by
      rw [← Nat.add_zero r.stop, r.getElem?_stop_add, hafter]
      rfl
    obtain ⟨s, ⟨hs, hwithin⟩, -⟩ := h.existsUnique_within hr
    have hjoined := h.isJoined s hs
    have hnext : IsAt p text (r.stop + 1) := hstart ▸ hfirst
    have hlt : r.stop < s.stop := by
      refine Nat.lt_of_le_of_ne hwithin.2 fun heq => ?_
      rw [heq] at hjoiner hnext
      exact hjoined.not_isAt_stop_succ hjoiner hnext
    have hle : s.before.length ≤ r.stop := hwithin.1.trans (Nat.le_add_right _ _)
    obtain ⟨-, hlt', -⟩ := hjoined.of_not_isAt hle hlt hstop
    exact ⟨s, hs, hwithin, hjoined.within_of_isRun hr' (by omega) (hstart ▸ hlt')⟩

end JoinRuns

end Span

end Text

/-! ## Matches of joined runs -/

namespace Pattern

variable {s : CharSet} {j : Char} {text : List Char}

/-- What the expression takes, together with the character in front of it, are joined runs. -/
theorem Joins.joined {taken rest : List Char} (h : Joins s j taken rest) {c : Char}
    (hc : s.mem c = true) : Text.Joined s.mem j (c :: taken) := by
  induction h generalizing c with
  | stop => exact .single hc
  | run hd _ ih => exact .cons hc (ih hd)
  | join hd _ ih => exact .join hc (ih hd)

/-- The expression goes on as long as it can. -/
theorem Joins.rest_ends {taken rest : List Char} (h : Joins s j taken rest) :
    (∀ c ∈ rest.head?, s.mem c = false) ∧
      ∀ d more, rest = j :: d :: more → s.mem d = false := by
  induction h with
  | stop hnext hjoin => exact ⟨hnext, hjoin⟩
  | run _ _ ih => exact ih
  | join _ _ ih => exact ih

/-- A match is a maximal span of joined runs. -/
theorem IsMatch.isJoined (hj : s.mem j = false) {found : Span text}
    (h : IsMatch (joinedRuns s j) found) : found.IsJoined s.mem j := by
  rw [IsMatch] at h
  cases hinside : found.inside with
  | nil =>
    rw [hinside] at h
    exact absurd h (neverEmpty_joinedRuns hj _ _)
  | cons c inside =>
    rw [hinside, List.cons_append] at h
    have hc : s.mem c = true := by
      by_contra hfalse
      rw [matchLength_joinedRuns_of_not_mem (Bool.eq_false_iff.mpr hfalse)] at h
      cases h
    obtain ⟨taken, rest, hparts, hjoins⟩ := Joins.exists_of_text s j (inside ++ found.after)
    rw [← hparts, matchLength_joinedRuns_of_mem hj hc hjoins, List.length_cons] at h
    obtain ⟨rfl, rfl⟩ := List.append_inj hparts (Nat.succ.inj (Option.some.inj h))
    obtain ⟨hafter, hapart⟩ := hjoins.rest_ends
    exact ⟨hinside ▸ hjoins.joined hc, hafter, hapart⟩

/-- A search for the expression finds the joined runs of a text. -/
theorem FindsFrom.joinRuns (hj : s.mem j = false) {found : List (Span text)}
    (h : FindsFrom (joinedRuns s j) text 0 found) : Span.JoinRuns s.mem j text found := by
  have hbegins := beginsWith_joinedRuns hj
  have hjoined : ∀ f ∈ found, f.IsJoined s.mem j := fun f hf => (h.isMatch f hf).isJoined hj
  exact ⟨hjoined, hbegins.ordered h fun f hf => (hjoined f hf).not_isAt_stop,
    fun i hi => h.covers i (Nat.zero_le i) (hbegins.beginsAt_iff.mpr hi)⟩

end Pattern

namespace Tokenizer

/-- The tokenizer for words. -/
def ofWords : Tokenizer :=
  .regex ⟨wordPattern, Pattern.joinedRuns (.named .word) '.', Pattern.readPattern_wordPattern⟩ false

/-- The tokenizer for words can be made. -/
theorem words_eq_ok : words = .ok ofWords := by
  rw [words, ofPattern, Pattern.ofSource_eq_ok Pattern.readPattern_wordPattern]
  rfl

end Tokenizer

/-- The tokens of the pattern for words lie in the text in order, one behind the other, and hold the
runs of word characters. Every run lies inside exactly one token. Two runs without another one
between them share a token exactly where a dot alone stands between them; and apart from such dots
tokens hold nothing but runs, so none is empty, starts or ends with a dot, or has two dots in
succession. -/
theorem word_tokens_join_runs :
    ∃ t : Tokenizer,
      Tokenizer.words = .ok t ∧
      ∀ (o : Options) (text : String) (w : Workspace),
        o.tokenize = true →
        let tokens := ((t.tokenize o text).drain w).1
        ∃ found : List (Span text.toList),
          List.Forall₂ (fun t s => t.text = String.ofList s.inside ∧ t.LiesOn o s) tokens found ∧
          found.Pairwise (fun s s' => s.last < s'.first) ∧
          (∀ r : Span text.toList, r.IsRun Unicode.isWord → ∃! s, s ∈ found ∧ r.Within s) ∧
          (∀ (r r' : Span text.toList) (between : List Char),
            r.IsRun Unicode.isWord → r'.IsRun Unicode.isWord →
            r.before ++ r.inside ++ between = r'.before →
            (∀ c ∈ between, Unicode.isWord c = false) →
            ((∃ s ∈ found, r.Within s ∧ r'.Within s) ↔ between = ['.'])) ∧
          (∀ s ∈ found, Text.Joined Unicode.isWord '.' s.inside) ∧
          ∀ t ∈ tokens,
            t.text ≠ "" ∧ t.text.toList.head? ≠ some '.' ∧ t.text.toList.getLast? ≠ some '.' ∧
              ¬ ['.', '.'] <:+: t.text.toList := by
  have hdot : Pattern.CharSet.mem (.named .word) '.' = false := by decide
  have hempty := Pattern.neverEmpty_joinedRuns hdot
  refine ⟨.ofWords, Tokenizer.words_eq_ok, ?_⟩
  intro o text w htokenize tokens
  obtain ⟨found, hfinds, hfound⟩ := Pattern.exists_finds hempty text.toList
  have hruns := hfound.joinRuns hdot
  have htokens : List.Forall₂ (fun t s => t.text = String.ofList s.inside ∧ t.LiesOn o s) tokens
      found :=
    Tokenizer.forall₂_drain_of_finds hempty o htokenize text w hfinds
  have hjoined : ∀ s ∈ found, Text.Joined Unicode.isWord '.' s.inside :=
    fun s hs => (hruns.isJoined s hs).inside
  refine ⟨found, htokens, hruns.ordered.imp Span.last_lt_first,
    fun r hr => hruns.existsUnique_within hr,
    fun r r' between hr hr' hparts hbetween => hruns.exists_within_iff hr hr' hparts hbetween,
    hjoined, fun t ht => ?_⟩
  obtain ⟨k, hk, rfl⟩ := List.getElem_of_mem ht
  have hlength : k < found.length := htokens.length_eq ▸ hk
  have htext := (htokens.get hk hlength).1
  have hinside := hjoined found[k] (List.getElem_mem hlength)
  rw [List.get_eq_getElem, List.get_eq_getElem] at htext
  rw [htext, String.toList_ofList, Ne, String.ofList_eq_empty_iff]
  refine ⟨?_, hinside.head?_ne hdot, hinside.getLast?_ne hdot, hinside.not_infix hdot⟩
  obtain ⟨c, rest, hcons, -⟩ := hinside.exists_cons
  exact List.ne_nil_of_mem (hcons ▸ List.mem_cons_self)

/-- Dots in front, behind, doubled, next to another character, and alone between two runs. -/
theorem word_tokens_join_runs_dots :
    let o : Options := { offsets := true }
    let text := ".a..b.-c.d_1."
    let c : Span text.toList := ⟨".a..b.-".toList, ['c'], ".d_1.".toList, by decide⟩
    let d : Span text.toList := ⟨".a..b.-c.".toList, "d_1".toList, ['.'], by decide⟩
    ∃ t : Tokenizer,
      Tokenizer.words = .ok t ∧ o.tokenize = true ∧
      (c.IsRun Unicode.isWord ∧ d.IsRun Unicode.isWord ∧ c.before ++ c.inside ++ ['.'] = d.before ∧
        ∀ x ∈ ['.'], Unicode.isWord x = false) ∧
      let tokens := ((t.tokenize o text).drain {}).1
      (∃ found : List (Span text.toList),
        List.Forall₂ (fun t s => t.text = String.ofList s.inside ∧ t.LiesOn o s) tokens found ∧
        ∃ s ∈ found, c.Within s ∧ d.Within s) ∧
      tokens.map (fun t => (t.text, t.startOffset, t.endOffset)) =
        [("a", some 1, some 2), ("b", some 4, some 5), ("c.d_1", some 7, some 12)] := by
  intro o text c d
  have hc : c.IsRun Unicode.isWord := by decide
  have hd : d.IsRun Unicode.isWord := by decide
  have hdot : ∀ x ∈ ['.'], Unicode.isWord x = false := List.forall_mem_singleton.mpr (by decide)
  obtain ⟨t, ht, htokens⟩ := word_tokens_join_runs
  obtain rfl : t = .ofWords := Except.ok.inj (ht.symm.trans Tokenizer.words_eq_ok)
  obtain ⟨found, hfound, -, -, hshare, -, -⟩ := htokens o text {} rfl
  have hwithin := (hshare c d ['.'] hc hd (by decide) hdot).mpr rfl
  exact ⟨.ofWords, ht, rfl, ⟨hc, hd, by decide, hdot⟩, ⟨found, hfound, hwithin⟩, by decide⟩

end TextAnalysis
