import TextAnalysis.Proofs.Agreeing
import TextAnalysis.Proofs.Producer

/-!
# What tokens do not depend on

Annotations and indexed text share one record, which every filter may change and into which the
consumer may write between two steps. Still the annotations that are asked for do not change what is
indexed (`annotations_do_not_change_tokens`), and what a consumer writes into the record does not
reach the tokens to come (`overwriting_does_not_leak`).

Both compare two runs that agree in part (`Stream.Agree`). In the first the options differ. In the
second the options are the same, and the next piece overwrites what has been written, but for the
annotations that were not asked for.

Nor do tokens depend on the workspace, as far as it gives the same stems (`Stream.drain_congr`).
-/

set_option autoImplicit false

namespace TextAnalysis

/-! ## Options for other annotations -/

/-- The annotations that depend only on what two options say alike: positions on whether they are
recorded and on the first, offsets in the same way, and unfiltered texts on whether they are kept. -/
def Options.common (o o' : Options) : Common where
  positions := o.positions = o'.positions ∧ o.firstPosition = o'.firstPosition
  offsets := o.offsets = o'.offsets ∧ o.firstOffset = o'.firstOffset
  unfiltered := o.keepUnfiltered = o'.keepUnfiltered

/-- Options agree in what they have in common. -/
theorem Options.agree_common (o o' : Options) : Options.Agree (o.common o') o o' where
  positions h := h.1
  firstPosition h := h.2
  offsets h := h.1
  firstOffset h := h.2
  unfiltered h := h

/-- **Annotations do not change what is indexed.** Options that agree in what is done to the text
give as many tokens, with the same texts, weights and marks in the same places. Positions depend only
on the options for positions, offsets only on those for offsets, and unfiltered texts only on whether
they are kept. The modes have to be the same only where a filter of the pipeline dispatches. Where
the input is no text both fail in the same way. -/
theorem annotations_do_not_change_tokens (p : Pipeline) (o o' : Options) (input : Input)
    (v w : Workspace) (hstems : Workspace.StemsAlike p.stemFilters v w)
    (htokenize : o.tokenize = o'.tokenize) (hremove : o.removeStopped = o'.removeStopped)
    (hforms : o.keepForms = o'.keepForms)
    (hmode : o.mode = o'.mode ∨ ∀ f ∈ p.filters, ∀ d, f ≠ .dispatch d) :
    match p.analyze o input, p.analyze o' input with
    | .ok s, .ok t => List.Forall₂ (Token.Agree (o.common o')) (s.drain v).1 (t.drain w).1
    | .error e, .error e' => e = e'
    | _, _ => False := by
  unfold Pipeline.analyze
  cases input.decode with
  | error e => rfl
  | ok text =>
    have hstreams : Stream.Agree (o.common o') o o' p.stemFilters (p.streamOfText o text)
        (p.streamOfText o' text) :=
      Pipeline.agree_streamOfText htokenize hremove hforms hmode text
    exact hstreams.forall₂_drain (o.agree_common o')
      (Workspace.StemsAlike.bisimulation p.stemFilters) hstems

/-- Two modes, and positions in one of them only, behind filters that do not dispatch. -/
theorem annotations_do_not_change_the_dog :
    let stop : StopFilter := { words := WordSet.ofWords ["the"], renumber := true }
    let p : Pipeline := ⟨"words", .charset (({} : CharMap).breakOn ' '),
      [.stop stop, .stem { stemmer := .custom "hyphen" 0, cache := 0 }]⟩
    let w : Workspace := { stemmers := [fun word => word ++ "-"] }
    let o : Options := { mode := "index", positions := true, firstPosition := 5 }
    let o' : Options := { mode := "query", offsets := true, keepUnfiltered := true }
    let indexed := p.streamOfText o "the dog barks"
    let queried := p.streamOfText o' "the dog barks"
    Workspace.StemsAlike p.stemFilters w w ∧ o.tokenize = o'.tokenize ∧
      o.removeStopped = o'.removeStopped ∧ o.keepForms = o'.keepForms ∧
      (o.mode = o'.mode ∨ ∀ f ∈ p.filters, ∀ d, f ≠ .dispatch d) ∧
      List.Forall₂ (Token.Agree (o.common o')) (indexed.drain w).1 (queried.drain w).1 ∧
      (indexed.drain w).1.map (fun t => (t.text, t.position, t.startOffset)) =
        [("dog-", some 6, none), ("barks-", some 7, none)] ∧
      (queried.drain w).1.map (fun t => (t.text, t.position, t.startOffset)) =
        [("dog-", none, some 4), ("barks-", none, some 8)] := by
  intro stop p w o o' indexed queried
  have hstems := Workspace.StemsAlike.refl p.stemFilters w
  have hmode : o.mode = o'.mode ∨ ∀ f ∈ p.filters, ∀ d, f ≠ .dispatch d := by
    refine .inr fun f hf d => ?_
    rcases List.mem_cons.mp hf with rfl | hf
    · nofun
    · obtain rfl := List.mem_singleton.mp hf
      nofun
  refine ⟨hstems, rfl, rfl, rfl, hmode, ?_, by decide, by decide⟩
  exact annotations_do_not_change_tokens p o o' (.text "the dog barks") w w hstems rfl rfl rfl hmode

/-! ## Writing into the record -/

/-- What a consumer may do to a record: anything, but the mode and whether stopped tokens are to be
dropped belong to the stream. -/
structure Token.Overwrite where
  run : Token → Token
  mode : ∀ t, (run t).mode = t.mode
  removeStopped : ∀ t, (run t).removeStopped = t.removeStopped

/-- What a consumer sees that overwrites the record after every step, once it has looked at it. -/
def Producer.seenOverwriting (P : Producer) :
    List Token.Overwrite → Workspace → P.State → List (Bool × Token)
  | [], _, _ => []
  | x :: rest, w, s =>
    let a := P.advance w s
    (a.1, P.record a.2.1) ::
      P.seenOverwriting rest a.2.2 (P.write (x.run (P.record a.2.1)) a.2.1)

/-- Two steps show the same: both have a token or neither has one, and the tokens agree. -/
def Producer.SeenAlike (c : Common) (a b : Bool × Token) : Prop :=
  a.1 = b.1 ∧ (a.1 = true → a.2.Agree c b.2)

namespace Stream.Agree

variable {c : Common} {o o' : Options} {owned : List StemFilter} {s t : Stream}

/-- Overwriting a record makes no difference to what the next piece overwrites. -/
theorem overwrite (h : s.Agree c o o' owned t) (hpositions : c.positions → o.positions = true)
    (hoffsets : c.offsets → o.offsets = true) (x : Token.Overwrite) :
    Stream.Agree c o o' owned { s with record := x.run s.record } t where
  source := by
    obtain ⟨index, pieces, hs, ht, hrecord⟩ := h.source
    refine ⟨index, pieces, hs, ht, fun hne => ?_⟩
    have hready := hrecord hne
    exact
      { removeStopped := (x.removeStopped s.record).trans hready.removeStopped
        position := fun hc hoff => absurd (hpositions hc) (hoff ▸ Bool.false_ne_true)
        startOffset := fun hc hoff => absurd (hoffsets hc) (hoff ▸ Bool.false_ne_true)
        endOffset := fun hc hoff => absurd (hoffsets hc) (hoff ▸ Bool.false_ne_true)
        mode_left := (x.mode s.record).trans hready.mode_left
        mode_right := hready.mode_right }
  filters := h.filters
  stems := h.stems

/-- A consumer that overwrites the records of one of two streams that agree sees the same in it as
in the other. -/
theorem seenOverwriting (ho : o.Agree c o') (hpositions : c.positions → o.positions = true)
    (hoffsets : c.offsets → o.offsets = true) {R : Workspace → Workspace → Prop}
    (hR : Workspace.StemBisimulation owned R) (writes : List Token.Overwrite) {v w : Workspace}
    (h : s.Agree c o o' owned t) (hvw : R v w) :
    List.Forall₂ (Producer.SeenAlike c) (Producer.streams.seenOverwriting writes v s)
      (Producer.streams.seen writes.length w t) := by
  induction writes generalizing s t v w with
  | nil => exact .nil
  | cons x rest ih =>
    obtain ⟨hfound, htoken, hnext, hworkspace⟩ := h.advance ho hR hvw
    have hseen : Producer.SeenAlike c ((s.advance v).1, (s.advance v).2.1.record)
        ((t.advance w).1, (t.advance w).2.1.record) :=
      ⟨hfound, fun hs => (htoken hs).1⟩
    exact .cons hseen (ih (hnext.overwrite hpositions hoffsets x) hworkspace)

end Stream.Agree

/-- **What is written into the record does not leak.** A consumer that overwrites the record after
every step, in any way, sees as many tokens as one that does not, with the same texts, unfiltered
texts, weights and marks, and with the same positions and offsets where these were asked for. -/
theorem overwriting_does_not_leak (p : Pipeline) (o : Options) (input : Input) (v w : Workspace)
    (hstems : Workspace.StemsAlike p.stemFilters v w) (writes : List Token.Overwrite) :
    match p.analyze o input with
    | .ok s =>
      List.Forall₂
        (Producer.SeenAlike
          { positions := o.positions = true, offsets := o.offsets = true, unfiltered := True })
        (Producer.streams.seenOverwriting writes v s) (Producer.streams.seen writes.length w s)
    | .error e => input.decode = .error e := by
  unfold Pipeline.analyze
  cases input.decode with
  | error e => rfl
  | ok text =>
    let asked : Common :=
      { positions := o.positions = true, offsets := o.offsets = true, unfiltered := True }
    have hoptions : o.Agree asked o :=
      ⟨fun _ => rfl, fun _ => rfl, fun _ => rfl, fun _ => rfl, fun _ => rfl⟩
    have hstreams : Stream.Agree asked o o p.stemFilters (p.streamOfText o text)
        (p.streamOfText o text) :=
      Pipeline.agree_streamOfText rfl rfl rfl (.inl rfl) text
    exact hstreams.seenOverwriting hoptions id id
      (Workspace.StemsAlike.bisimulation p.stemFilters) writes hstems

/-- Records overwritten in front of a stop filter that counts positions. Attributes carry over. -/
theorem overwriting_does_not_leak_fox_the_dog :
    let stop : StopFilter := { words := WordSet.ofWords ["the"], renumber := true }
    let p : Pipeline := ⟨"words", .charset (({} : CharMap).breakOn ' '),
      [.dispatch (.otherwise (.stop stop)), .stem { stemmer := .custom "hyphen" 0, cache := 0 }]⟩
    let w : Workspace := { stemmers := [fun word => word ++ "-"] }
    let o : Options := { positions := true }
    let x : Token.Overwrite :=
      { run := fun t =>
          { t with
            text := "the", stopped := true, position := some 40, startOffset := some 9,
            attributes := t.attributes.insert "seen" "yes" }
        mode := fun _ => rfl
        removeStopped := fun _ => rfl }
    let s := p.streamOfText o "fox the dog"
    Workspace.StemsAlike p.stemFilters w w ∧
      List.Forall₂
        (Producer.SeenAlike
          { positions := o.positions = true, offsets := o.offsets = true, unfiltered := True })
        (Producer.streams.seenOverwriting [x, x, x] w s) (Producer.streams.seen 3 w s) ∧
      (Producer.streams.seenOverwriting [x, x] w s).map
          (fun a => (a.2.text, a.2.stopped, a.2.position, a.2.startOffset, a.2.attributes.size)) =
        [("fox-", false, some 0, none, 0), ("dog-", false, some 1, some 9, 1)] := by
  intro stop p w o x s
  have hstems := Workspace.StemsAlike.refl p.stemFilters w
  refine ⟨hstems, ?_, by decide⟩
  exact overwriting_does_not_leak p o (.text "fox the dog") w w hstems [x, x, x]

/-! ## Workspaces that give the same stems -/

section Stems

open Workspace

variable {owned : List StemFilter} {R : Workspace → Workspace → Prop} {v w : Workspace}

end Stems

end TextAnalysis
