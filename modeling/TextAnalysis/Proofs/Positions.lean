import TextAnalysis.Proofs.Stopping

/-!
# Positions in order

A tokenizer numbers its tokens one after the other, up to the greatest position. Stop filters that
do not renumber leave gaps at most. A stop filter that renumbers counts on from the last position
that it has given, but only for the tokens that it does not stop: a token that it marks keeps the
position that it had, which may then be that of a later token (`marked_token_shares_position`).

The invariants say, between any two filters, which position the next token may have there
(`Orderly`, `EndsRenumbering`). One token keeps them, hence so do all (`KeepsOrder.inOrderFrom`).
Main statement: `positions_increase`.
-/

set_option autoImplicit false

namespace TextAnalysis

namespace Saturating

/-- The greater position comes later, and at the ceiling positions stay where they are. -/
def Precedes (a b : Nat) : Prop := a < b ∨ (a = ceiling ∧ b = ceiling)

/-- Positions precede one another along a chain. -/
theorem Precedes.trans {a b c : Nat} (hab : Precedes a b) (hbc : Precedes b c) : Precedes a c := by
  unfold Precedes at *
  omega

/-- A position precedes the next. -/
theorem precedes_add_one {a : Nat} (h : a ≤ ceiling) : Precedes a (add a 1) := by
  unfold Precedes add
  omega

/-- A position that may come behind the last one, where there is a last one. -/
structure Follows (last : Option Nat) (q : Nat) : Prop where
  le_ceiling : q ≤ ceiling
  precedes : ∀ p ∈ last, Precedes p q

namespace Follows

/-- What follows a position follows those that it follows. -/
theorem trans {last : Option Nat} {p q : Nat} (hp : Follows last p) (hq : Follows (some p) q) :
    Follows last q :=
  ⟨hq.le_ceiling, fun a ha => (hp.precedes a ha).trans (hq.precedes p rfl)⟩

/-- The first position follows none. -/
theorem none {q : Nat} (h : q ≤ ceiling) : Follows none q := ⟨h, nofun⟩

/-- The next position follows. -/
theorem add_one {p : Nat} (h : p ≤ ceiling) : Follows (some p) (add p 1) := by
  refine ⟨add_le_ceiling p 1, ?_⟩
  rintro _ ⟨⟩
  exact precedes_add_one h

/-- A position that follows is no higher than the ceiling. -/
theorem le_of_mem_some {last : Option Nat} {q : Nat} (h : Follows last q) :
    ∀ p ∈ some q, p ≤ ceiling := by
  rintro _ ⟨⟩
  exact h.le_ceiling

end Follows

end Saturating

open Saturating (ceiling Precedes Follows)

/-- All tokens have positions, and these increase up to the ceiling. -/
def Token.InOrder (ts : List Token) : Prop :=
  ∃ ps : List Nat, ts.map Token.position = ps.map some ∧ ps.Pairwise Precedes

/-- All tokens have positions, and these increase from behind the last one. -/
def Token.InOrderFrom (last : Option Nat) (ts : List Token) : Prop :=
  ∃ ps : List Nat, ts.map Token.position = ps.map some ∧ (∀ p ∈ ps, Follows last p) ∧
    ps.Pairwise Precedes

namespace Token.InOrderFrom

/-- No tokens are in order. -/
theorem nil (last : Option Nat) : InOrderFrom last [] := ⟨[], rfl, nofun, .nil⟩

/-- A token whose position follows may stand in front of tokens in order. -/
theorem cons {last : Option Nat} {t : Token} {q : Nat} {rest : List Token}
    (hq : t.position = some q) (hfollows : Follows last q) (hrest : InOrderFrom (some q) rest) :
    InOrderFrom last (t :: rest) := by
  obtain ⟨ps, hmap, hps, horder⟩ := hrest
  refine ⟨q :: ps, by rw [List.map_cons, List.map_cons, hq, hmap], ?_,
    .cons (fun p hp => (hps p hp).precedes q rfl) horder⟩
  intro p hp
  rcases List.mem_cons.mp hp with rfl | hp
  · exact hfollows
  · exact hfollows.trans (hps p hp)

/-- Tokens that are in order behind a position are in order. -/
theorem inOrder {last : Option Nat} {ts : List Token} (h : InOrderFrom last ts) : InOrder ts :=
  let ⟨ps, hmap, _, horder⟩ := h
  ⟨ps, hmap, horder⟩

end Token.InOrderFrom

/-! ## One token, and all tokens -/

/-- A token that is kept and shown leaves a position behind, which follows the last one. -/
def Leaves (shown : Token → Bool) (last last' : Option Nat) (kept : Bool) (t : Token) : Prop :=
  if kept && shown t then ∃ q, t.position = some q ∧ last' = some q ∧ Follows last q
  else last' = last

/-- What `I` says of filters stays true behind every token: `I a b filters`, where `a` is the last
position in front of the filters and `b` the last one behind them. -/
def KeepsOrder (removing : Bool) (shown : Token → Bool)
    (I : Option Nat → Option Nat → List Running → Prop) : Prop :=
  ∀ ⦃a b : Option Nat⦄ ⦃filters : List Running⦄, I a b filters → ∀ (w : Workspace) ⦃t : Token⦄
    ⦃q : Nat⦄, t.removeStopped = removing → t.position = some q → Follows a q →
    let p := passThrough w t filters
    ∃ b', I (some q) b' p.filter ∧ Leaves shown b b' p.kept p.token

/-- The positions of the tokens that are shown increase. -/
theorem KeepsOrder.inOrderFrom {removing : Bool} {shown : Token → Bool}
    {I : Option Nat → Option Nat → List Running → Prop} (hI : KeepsOrder removing shown I)
    {a b : Option Nat} {filters : List Running} (h : I a b filters) {o : Options}
    (hpositions : o.positions = true) {record : Token} (hrecord : record.removeStopped = removing)
    (w : Workspace) {index : Nat} (hnext : Follows a (Saturating.add o.firstPosition index))
    (pieces : List Piece) :
    Token.InOrderFrom b
      ((tokensFrom w record filters (Piece.updatesFrom o index pieces)).filter shown) := by
  induction pieces generalizing a b filters record w index with
  | nil => exact .nil b
  | cons p rest ih =>
    have hremove : ((p.update o index).apply record).removeStopped = removing := by
      rw [Piece.apply_update]
      exact hrecord
    have hposition : ((p.update o index).apply record).position =
        some (Saturating.add o.firstPosition index) := by
      rw [Piece.apply_update]
      exact if_pos hpositions
    obtain ⟨b', hkept, hleaves⟩ := hI h w hremove hposition hnext
    have hnext' : Follows (some (Saturating.add o.firstPosition index))
        (Saturating.add o.firstPosition (index + 1)) := by
      rw [← Saturating.add_add]
      exact .add_one hnext.le_ceiling
    have hrecord' :
        (passThrough w ((p.update o index).apply record) filters).token.removeStopped = removing :=
      (sameOrigin_passThrough w _ filters).removeStopped.trans hremove
    have hrest := ih hkept hrecord'
      (passThrough w ((p.update o index).apply record) filters).workspace hnext'
    rw [Piece.updatesFrom, tokensFrom]
    generalize passThrough w ((p.update o index).apply record) filters = passed at hleaves hrest
    unfold Leaves at hleaves
    cases hk : passed.kept with
    | false =>
      rw [hk, Bool.false_and, if_neg Bool.false_ne_true] at hleaves
      rw [if_neg Bool.false_ne_true, ← hleaves]
      exact hrest
    | true =>
      rw [hk, Bool.true_and] at hleaves
      rw [if_pos rfl, List.filter_cons]
      split at hleaves
      · next hshown =>
        obtain ⟨q, hq, rfl, hfollows⟩ := hleaves
        rw [if_pos hshown]
        exact .cons hq hfollows hrest
      · next hhidden =>
        rw [if_neg hhidden, ← hleaves]
        exact hrest

/-! ## Renumbering -/

namespace StopFilter

variable {f : StopFilter}

/-- A stop filter that renumbers gives a position that follows the last one it has given. -/
theorem renumbered_follows (h : f.renumber = true) {last : Option Nat}
    (hlast : ∀ p ∈ last, p ≤ ceiling) {q : Nat} (hq : q ≤ ceiling) :
    ∃ q', f.renumbered last (some q) = (some q', some q') ∧ Follows last q' := by
  cases last with
  | none => exact ⟨q, by simp only [renumbered, h], .none hq⟩
  | some p => exact ⟨_, by simp only [renumbered, h], .add_one (hlast p rfl)⟩

/-- Renumbered or not, a position stays below the ceiling. -/
theorem exists_renumbered (last : Option Nat) {q : Nat} (hq : q ≤ ceiling) :
    ∃ q', (f.renumbered last (some q)).1 = some q' ∧ q' ≤ ceiling := by
  cases h : f.renumber with
  | false => exact ⟨q, by rw [f.renumbered_of_not_renumber h], hq⟩
  | true =>
    cases last with
    | none => exact ⟨q, by simp only [renumbered, h], hq⟩
    | some p => exact ⟨_, by simp only [renumbered, h], Saturating.add_le_ceiling p 1⟩

end StopFilter

/-- Filters leave a position to every token that has one. -/
theorem Worker.exists_position_step {k : Worker} (hfilter : k ≠ .unstopped) (w : Workspace)
    {t : Token} {q : Nat} (hposition : t.position = some q) (hq : q ≤ ceiling) :
    ∃ q', (k.step w t).token.position = some q' ∧ q' ≤ ceiling := by
  by_cases hstop : k.stopFilters = []
  · obtain ⟨w', text, hstep⟩ := Worker.step_of_stopFilters_eq_nil hstop hfilter w t
    rw [hstep]
    exact ⟨q, hposition, hq⟩
  · obtain ⟨f, last, rfl⟩ := k.eq_stop_of_stopFilters_ne_nil hstop
    rcases step_stop_cases f last w t with ⟨-, hstep⟩ | ⟨-, -, hstep⟩ | ⟨-, -, hstep⟩
    · rw [hstep, hposition]
      exact f.exists_renumbered last hq
    · rw [hstep]
      exact ⟨q, hposition, hq⟩
    · rw [hstep]
      exact ⟨q, hposition, hq⟩

/-! ## All tokens in order

Where stop filters drop tokens, or do not renumber, the positions of all tokens increase. -/

/-- Between any two of the filters positions increase: `Orderly removing a b filters` where the next
position in front of them follows `a` and the last one behind them is `b`. -/
inductive Orderly (removing : Bool) : Option Nat → Option Nat → List Running → Prop where
  | nil (a : Option Nat) : Orderly removing a a []
  | text {k : Worker} {a b : Option Nat} {rest : List Running} (hstop : k.stopFilters = [])
      (hfilter : k ≠ .unstopped) (hrest : Orderly removing a b rest) :
      Orderly removing a b (.working k :: rest)
  /-- What follows the last token, dropped or not, follows the last one kept. -/
  | gaps {f : StopFilter} {last a a' b : Option Nat} {rest : List Running}
      (hrenumber : f.renumber = false) (hfollows : ∀ q, Follows a q → Follows a' q)
      (hrest : Orderly removing a' b rest) :
      Orderly removing a b (.working (.stop f last) :: rest)
  | renumber {f : StopFilter} {last a b : Option Nat} {rest : List Running}
      (hremoving : removing = true) (hrenumber : f.renumber = true)
      (hlast : ∀ p ∈ last, p ≤ ceiling) (hrest : Orderly removing last b rest) :
      Orderly removing a b (.working (.stop f last) :: rest)

namespace Orderly

/-- Before the first token there is no last position anywhere. -/
theorem start {removing : Bool} {ks : List Worker} (hfresh : ∀ k ∈ ks, k.fresh = k)
    (hfilters : ∀ k ∈ ks, k ≠ .unstopped)
    (h : removing = true ∨ ∀ f ∈ ks.flatMap Worker.stopFilters, f.renumber = false) :
    Orderly removing none none (ks.map .working) := by
  induction ks with
  | nil => exact .nil none
  | cons k rest ih =>
    rw [List.flatMap_cons] at h
    have hrest := ih (fun q hq => hfresh q (List.mem_cons_of_mem _ hq))
      (fun q hq => hfilters q (List.mem_cons_of_mem _ hq))
      (h.imp_right fun h f hf => h f (List.mem_append_right _ hf))
    have hk := hfresh k List.mem_cons_self
    cases k with
    | stop f last =>
      obtain rfl : none = last := by injection hk
      cases hrenumber : f.renumber with
      | false => exact .gaps hrenumber (fun _ hq => hq) hrest
      | true =>
        have hremoving : removing = true := h.resolve_right fun h =>
          Bool.false_ne_true ((h f List.mem_cons_self).symm.trans hrenumber)
        exact .renumber hremoving hrenumber nofun hrest
    | _ => exact .text rfl (hfilters _ List.mem_cons_self) hrest

/-- Orderly filters keep tokens in order. -/
theorem keepsOrder (removing : Bool) :
    KeepsOrder removing (fun _ => true) (Orderly removing) := by
  intro a b filters h
  induction h with
  | nil a =>
    intro w t q _ hq hfollows
    exact ⟨some q, .nil _, q, hq, rfl, hfollows⟩
  | text hstop hfilter _ ih =>
    intro w t q hremove hq hfollows
    obtain ⟨w', text, hstep⟩ := Worker.step_of_stopFilters_eq_nil hstop hfilter w t
    obtain ⟨b', hkept, hleaves⟩ := ih w' (t := { t with text := text }) hremove hq hfollows
    rw [passThrough_cons_of_kept hstep]
    exact ⟨b', .text hstop hfilter hkept, hleaves⟩
  | @gaps f last a a' b rest hrenumber hsub hrest ih =>
    intro w t q hremove hq hfollows
    rcases Worker.step_stop_cases f last w t with ⟨-, hstep⟩ | ⟨-, -, hstep⟩ | ⟨-, -, hstep⟩
    · rw [f.renumbered_of_not_renumber hrenumber] at hstep
      obtain ⟨b', hkept, hleaves⟩ :=
        ih w (t := { t with stopped := false }) hremove hq (hsub q hfollows)
      rw [passThrough_cons_of_kept hstep]
      exact ⟨b', .gaps hrenumber (fun _ h => h) hkept, hleaves⟩
    · obtain ⟨b', hkept, hleaves⟩ :=
        ih w (t := { t with stopped := true }) hremove hq (hsub q hfollows)
      rw [passThrough_cons_of_kept hstep]
      exact ⟨b', .gaps hrenumber (fun _ h => h) hkept, hleaves⟩
    · -- The dropped token is the last one in front, and leaves a gap behind.
      rw [passThrough_cons_of_dropped hstep]
      exact ⟨b, .gaps hrenumber (fun _ h => hsub _ (hfollows.trans h)) hrest, rfl⟩
  | @renumber f last a b rest hremoving hrenumber hlast hrest ih =>
    intro w t q hremove hq hfollows
    rcases Worker.step_stop_cases f last w t with ⟨-, hstep⟩ | ⟨-, hmarks, -⟩ | ⟨-, -, hstep⟩
    · obtain ⟨q', hposition, hfollows'⟩ :=
        f.renumbered_follows hrenumber hlast hfollows.le_ceiling
      rw [hq, hposition] at hstep
      obtain ⟨b', hkept, hleaves⟩ :=
        ih w (t := { t with stopped := false, position := some q' }) hremove rfl hfollows'
      rw [passThrough_cons_of_kept hstep]
      exact ⟨b', .renumber hremoving hrenumber hfollows'.le_of_mem_some hkept, hleaves⟩
    · exact absurd (hmarks.symm.trans (hremove.trans hremoving)) Bool.false_ne_true
    · rw [passThrough_cons_of_dropped hstep]
      exact ⟨b, .renumber hremoving hrenumber hlast hrest, rfl⟩

end Orderly

/-! ## Unmarked tokens in order

A stop filter that renumbers gives increasing positions to the tokens that it does not stop. Where
no other stop filter is behind it, these are the tokens that are not marked in the end. -/

/-- The last of the stop filters renumbers, and `last` is the last position that it has given. -/
inductive EndsRenumbering (last : Option Nat) : List Running → Prop where
  | here {f : StopFilter} {back : List Worker} (hrenumber : f.renumber = true)
      (hlast : ∀ p ∈ last, p ≤ ceiling) (hstops : back.flatMap Worker.stopFilters = [])
      (hfilters : ∀ k ∈ back, k ≠ .unstopped) :
      EndsRenumbering last (.working (.stop f last) :: back.map .working)
  | behind {k : Worker} {rest : List Running} (hfilter : k ≠ .unstopped)
      (hrest : EndsRenumbering last rest) : EndsRenumbering last (.working k :: rest)

namespace EndsRenumbering

/-- Before the first token the stop filter has given no position. -/
theorem start {ks : List Worker} (hfresh : ∀ k ∈ ks, k.fresh = k)
    (hfilters : ∀ k ∈ ks, k ≠ .unstopped) {f : StopFilter}
    (hf : (ks.flatMap Worker.stopFilters).getLast? = some f) (hrenumber : f.renumber = true) :
    EndsRenumbering none (ks.map .working) := by
  induction ks with
  | nil => cases hf
  | cons k rest ih =>
    have hfilter := hfilters k List.mem_cons_self
    have hfilters' : ∀ q ∈ rest, q ≠ .unstopped := fun q hq =>
      hfilters q (List.mem_cons_of_mem _ hq)
    rw [List.flatMap_cons, List.getLast?_append] at hf
    cases hrest : (rest.flatMap Worker.stopFilters).getLast? with
    | some g =>
      rw [hrest, Option.some_or] at hf
      exact .behind hfilter
        (ih (fun q hq => hfresh q (List.mem_cons_of_mem _ hq)) hfilters' (hrest.trans hf))
    | none =>
      -- The filter is the last one that stops tokens.
      have hstops : rest.flatMap Worker.stopFilters = [] := List.getLast?_eq_none_iff.mp hrest
      rw [hrest, Option.none_or] at hf
      have hk := hfresh k List.mem_cons_self
      cases k with
      | stop g last =>
        obtain rfl : none = last := by injection hk
        obtain rfl : g = f := Option.some.inj hf
        exact .here hrenumber nofun hstops hfilters'
      | _ => cases hf

/-- Filters that end with renumbering keep the unmarked tokens in order. -/
theorem keepsOrder (removing : Bool) :
    KeepsOrder removing (fun t => !t.stopped) (fun _ => EndsRenumbering) := by
  intro a b filters h w t q hremove hposition hfollows
  have hq := hfollows.le_ceiling
  clear hfollows a
  induction h generalizing w t q with
  | @here f back hrenumber hlast hstops hfilters =>
    rcases Worker.step_stop_cases f b w t with ⟨-, hstep⟩ | ⟨-, -, hstep⟩ | ⟨-, -, hstep⟩
    · obtain ⟨q', hrenumbered, hfollows⟩ := f.renumbered_follows hrenumber hlast hq
      rw [hposition, hrenumbered] at hstep
      obtain ⟨w', text, hback⟩ := passThrough_of_stopFilters_eq_nil hstops hfilters w
        { t with stopped := false, position := some q' }
      rw [passThrough_cons_of_kept hstep, hback]
      exact ⟨some q', .here hrenumber hfollows.le_of_mem_some hstops hfilters, q', rfl, rfl,
        hfollows⟩
    · -- Nothing behind the stop filter takes the mark off.
      obtain ⟨w', text, hback⟩ := passThrough_of_stopFilters_eq_nil hstops hfilters w
        { t with stopped := true }
      rw [passThrough_cons_of_kept hstep, hback]
      exact ⟨b, .here hrenumber hlast hstops hfilters, rfl⟩
    · rw [passThrough_cons_of_dropped hstep]
      exact ⟨b, .here hrenumber hlast hstops hfilters, rfl⟩
  | @behind k rest hfilter hrest ih =>
    obtain ⟨q', hposition', hq'⟩ := k.exists_position_step hfilter w hposition hq
    have hfilter' := k.filter_step_ne_unstopped hfilter w t
    have hremove' := (k.sameOrigin_step w t).removeStopped.trans hremove
    cases hkept : (k.step w t).kept with
    | false =>
      have hstep : k.step w t =
          ⟨(k.step w t).workspace, (k.step w t).filter, (k.step w t).token, false⟩ := by
        rw [← hkept]
      rw [passThrough_cons_of_dropped hstep]
      exact ⟨b, .behind hfilter' hrest, rfl⟩
    | true =>
      have hstep : k.step w t =
          ⟨(k.step w t).workspace, (k.step w t).filter, (k.step w t).token, true⟩ := by
        rw [← hkept]
      obtain ⟨b', hkeeps, hleaves⟩ := ih (k.step w t).workspace hremove' hposition' hq'
      rw [passThrough_cons_of_kept hstep]
      exact ⟨b', .behind hfilter' hkeeps, hleaves⟩

end EndsRenumbering

/-! ## The tokens of a pipeline -/

namespace Pipeline

variable (p : Pipeline) (o : Options) (text : String) (w : Workspace)

/-- Tokens are in order where the workers of the analysis keep them in order from the start. -/
theorem inOrder_filter_drain {shown : Token → Bool}
    {I : Option Nat → Option Nat → List Running → Prop} (hI : KeepsOrder o.removeStopped shown I)
    (hstart : I none none ((p.workers o).map .working)) (hpositions : o.positions = true) :
    Token.InOrder (((p.streamOfText o text).drain w).1.filter shown) := by
  have hrecord : (Token.ofOptions o).removeStopped = o.removeStopped := rfl
  have hfirst : Follows none (Saturating.add o.firstPosition 0) :=
    .none (Saturating.add_le_ceiling o.firstPosition 0)
  have horder := hI.inOrderFrom hstart hpositions hrecord w hfirst
    (p.tokenizer.cut o.tokenize text)
  rw [← p.drain_streamOfText o text w] at horder
  exact horder.inOrder

/-- Where no marked token is renumbered past, all tokens are in order. -/
theorem inOrder_drain (hpositions : o.positions = true)
    (h : o.removeStopped = true ∨ ∀ f ∈ p.stopFilters o.mode, f.renumber = false) :
    Token.InOrder ((p.streamOfText o text).drain w).1 := by
  rw [← p.stopFilters_workers o] at h
  have hstart : Orderly o.removeStopped none none ((p.workers o).map .working) :=
    .start (fun _ => fresh_of_mem_workers) (fun _ => ne_unstopped_of_mem_workers) h
  have horder := p.inOrder_filter_drain o text w (Orderly.keepsOrder o.removeStopped) hstart
    hpositions
  rwa [List.filter_true] at horder

/-- Where the last stop filter renumbers, the unmarked tokens are in order. -/
theorem inOrder_drain_unmarked (hpositions : o.positions = true) {f : StopFilter}
    (hf : (p.stopFilters o.mode).getLast? = some f) (hrenumber : f.renumber = true) :
    Token.InOrder (((p.streamOfText o text).drain w).1.filter fun t => !t.stopped) := by
  rw [← p.stopFilters_workers o] at hf
  have hstart : EndsRenumbering none ((p.workers o).map .working) :=
    .start (fun _ => fresh_of_mem_workers) (fun _ => ne_unstopped_of_mem_workers) hf hrenumber
  exact p.inOrder_filter_drain o text w (EndsRenumbering.keepsOrder o.removeStopped) hstart
    hpositions

end Pipeline

/-- **Positions increase.** Where positions are recorded, they increase up to the greatest position
if stopped tokens are dropped, or if no stop filter that the tokens pass renumbers. If the last of
these stop filters renumbers, the tokens that are not marked in the end have increasing positions in
any case. An analysis fails only where its input is no text. -/
theorem positions_increase (p : Pipeline) (o : Options) (input : Input) (w : Workspace) :
    match p.analyze { o with positions := true } input with
    | .ok s =>
      ((o.removeStopped = true ∨ ∀ f ∈ p.stopFilters o.mode, f.renumber = false) →
          Token.InOrder (s.drain w).1) ∧
        ∀ f, (p.stopFilters o.mode).getLast? = some f → f.renumber = true →
          Token.InOrder ((s.drain w).1.filter fun t => !t.stopped)
    | .error e => input.decode = .error e := by
  unfold Pipeline.analyze
  cases input.decode with
  | error e => rfl
  | ok text =>
    exact ⟨p.inOrder_drain { o with positions := true } text w rfl, fun f =>
      p.inOrder_drain_unmarked { o with positions := true } text w rfl⟩

/-- Three words, of which a stop filter that renumbers stops one. -/
theorem positions_increase_fox_the_dog :
    let stop : StopFilter := { words := WordSet.ofWords ["the"], renumber := true }
    let p : Pipeline := ⟨"words", .charset (({} : CharMap).breakOn ' '), [.stop stop]⟩
    let dropped := p.streamOfText { positions := true } "fox the dog"
    let marked := p.streamOfText { positions := true, removeStopped := false } "fox the dog"
    (p.stopFilters "").getLast? = some stop ∧ stop.renumber = true ∧
      Token.InOrder (dropped.drain {}).1 ∧
      Token.InOrder ((marked.drain {}).1.filter fun t => !t.stopped) ∧
      (dropped.drain {}).1.map Token.position = [some 0, some 1] := by
  intro stop p dropped marked
  refine ⟨rfl, rfl, ?_, ?_, by decide⟩
  · exact (positions_increase p {} (.text "fox the dog") {}).1 (.inl rfl)
  · exact (positions_increase p { removeStopped := false } (.text "fox the dog") {}).2 stop rfl rfl

/-- A stop filter that renumbers gives the position of a token that it has marked to the next one.
-/
theorem marked_token_shares_position :
    let stop : StopFilter := { words := WordSet.ofWords ["the"], renumber := true }
    let p : Pipeline := ⟨"words", .charset (({} : CharMap).breakOn ' '), [.stop stop]⟩
    let marked := p.streamOfText { positions := true, removeStopped := false } "fox the dog"
    (marked.drain {}).1.map (fun t => (t.position, t.stopped)) =
        [(some 0, false), (some 1, true), (some 1, false)] ∧
      ¬ Token.InOrder (marked.drain {}).1 := by
  intro stop p marked
  refine ⟨by decide, ?_⟩
  rintro ⟨ps, hmap, horder⟩
  have hpositions : (marked.drain {}).1.map Token.position = [0, 1, 1].map some := by decide
  obtain rfl : [0, 1, 1] = ps :=
    List.map_injective_iff.mpr (Option.some_injective Nat) (hpositions.symm.trans hmap)
  have hone : Precedes 1 1 := by simp at horder; exact horder.2
  unfold Precedes ceiling at hone
  omega

end TextAnalysis
