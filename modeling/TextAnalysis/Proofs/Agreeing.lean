import TextAnalysis.Proofs.Lookups
import TextAnalysis.Proofs.Stopping

/-!
# Runs that agree in part

Two analyses of one text may record different annotations, or something may be written into the
records of one of them, and yet their tokens agree in part: in what is indexed, and in some of the
annotations (`Common`). What a filter does to a token depends on the text and the marks only, and a
stop filter that renumbers makes positions of positions only.

One worker keeps two runs together (`Worker.agree_step`), hence so do all filters
(`agree_passThrough`), hence so does every step of two streams. Main statement:
`Stream.Agree.advance`.
-/

set_option autoImplicit false

namespace TextAnalysis

/-! ## Tokens and workers -/

/-- The annotations in which two runs are to agree. -/
structure Common where
  positions : Prop
  offsets : Prop
  unfiltered : Prop

/-- Two tokens agree in what is indexed and in the common annotations. -/
structure Token.Agree (c : Common) (a b : Token) : Prop where
  text : a.text = b.text
  boost : a.boost = b.boost
  stopped : a.stopped = b.stopped
  removeStopped : a.removeStopped = b.removeStopped
  position : c.positions → a.position = b.position
  startOffset : c.offsets → a.startOffset = b.startOffset
  endOffset : c.offsets → a.endOffset = b.endOffset
  unfiltered : c.unfiltered → a.unfiltered = b.unfiltered

/-- Two workers come from one filter, and remember the same where positions are common. -/
structure Worker.Agree (c : Common) (k l : Worker) : Prop where
  fresh : k.fresh = l.fresh
  same : c.positions → k = l

/-- Two filters on streams whose tokens have the given modes come to the same work. -/
def Running.Agree (c : Common) (mode mode' : String) (r q : Running) : Prop :=
  (r.worker mode).Agree c (q.worker mode')

/-- What becomes of a token in two runs: the tokens agree, and the filters and the workspaces are
related. -/
structure Passed.Agree {α : Type} (c : Common) (F : α → α → Prop)
    (R : Workspace → Workspace → Prop) (p q : Passed α) : Prop where
  kept : p.kept = q.kept
  token : p.token.Agree c q.token
  filter : F p.filter q.filter
  workspace : R p.workspace q.workspace

namespace Token.Agree

variable {c : Common} {a b : Token}

/-- Every token agrees with itself. -/
theorem refl (c : Common) (t : Token) : t.Agree c t :=
  ⟨rfl, rfl, rfl, rfl, fun _ => rfl, fun _ => rfl, fun _ => rfl, fun _ => rfl⟩

/-- Tokens go on to agree when both get the same text, -/
theorem withText (h : a.Agree c b) (text : String) :
    Token.Agree c { a with text := text } { b with text := text } :=
  ⟨rfl, h.boost, h.stopped, h.removeStopped, h.position, h.startOffset, h.endOffset, h.unfiltered⟩

/-- the same mark, -/
theorem withStopped (h : a.Agree c b) (stopped : Bool) :
    Token.Agree c { a with stopped := stopped } { b with stopped := stopped } :=
  ⟨h.text, h.boost, rfl, h.removeStopped, h.position, h.startOffset, h.endOffset, h.unfiltered⟩

/-- or positions that agree where positions are common. -/
theorem withPosition (h : a.Agree c b) {p q : Option Nat} (hpq : c.positions → p = q) :
    Token.Agree c { a with position := p } { b with position := q } :=
  ⟨h.text, h.boost, h.stopped, h.removeStopped, hpq, h.startOffset, h.endOffset, h.unfiltered⟩

end Token.Agree

namespace Worker

/-- Every worker agrees with itself. -/
theorem Agree.refl (c : Common) (k : Worker) : k.Agree c k := ⟨rfl, fun _ => rfl⟩

/-- Workers from one filter are the same, unless they are stop filters. -/
theorem Agree.cases {c : Common} {k l : Worker} (h : k.Agree c l) :
    (k = l ∧ k.stopFilters = []) ∨
      ∃ f last last', k = .stop f last ∧ l = .stop f last' ∧ (c.positions → last = last') := by
  obtain ⟨hfresh, hsame⟩ := h
  cases k with
  | stop f last =>
    cases l with
    | stop g last' =>
      obtain rfl : f = g := by injection hfresh
      exact .inr ⟨f, last, last', rfl, rfl, fun hc => by injection hsame hc⟩
    | _ => cases hfresh
  | _ =>
    cases l with
    | stop g last' => cases hfresh
    | _ => exact .inl ⟨hfresh, rfl⟩

end Worker

/-- All parts that a token can have. -/
def Common.all : Common := ⟨True, True, True⟩

/-- Tokens of the same origin that agree in everything are equal. -/
theorem Token.Agree.eq {a b : Token} (h : a.Agree .all b) (horigin : a.SameOrigin b) : a = b := by
  cases a
  cases b
  rw [Token.mk.injEq]
  exact ⟨h.text, horigin.unfiltered, horigin.boost, h.stopped, h.position trivial,
    horigin.startOffset, horigin.endOffset, horigin.attributes, horigin.mode,
    horigin.removeStopped⟩

/-! ## One token -/

section Steps

open Workspace

variable {owned : List StemFilter} {R : Workspace → Workspace → Prop} {v w : Workspace}

/-- What a worker that is no stop filter does depends on the text of the token and on its mark. -/
theorem Worker.step_congr (hR : StemBisimulation owned R) (h : R v w) {k : Worker}
    (hstop : k.stopFilters = []) (hstem : k.stemFilters ⊆ owned) {a b : Token}
    (htext : a.text = b.text) (hstopped : a.stopped = b.stopped) :
    ∃ v' w' text kept, k.step v a = ⟨v', k, { a with text := text }, kept⟩ ∧
      k.step w b = ⟨w', k, { b with text := text }, kept⟩ ∧ R v' w' := by
  cases k with
  | stop f last => cases hstop
  | stem f =>
    have hf := hstem (List.mem_singleton_self f)
    cases hignored : b.stopped || f.ignored.contains b.text with
    | true =>
      have hv := step_stem_of_ignored (t := a) (by rw [hstopped, htext, hignored]) v
      exact ⟨v, w, b.text, true, by rw [hv, ← htext], step_stem_of_ignored hignored w, h⟩
    | false =>
      have hv := step_stem_of_not_ignored (t := a) (by rw [hstopped, htext, hignored]) v
      rw [htext, hR.stem_fst h f hf] at hv
      exact ⟨_, _, _, _, hv, step_stem_of_not_ignored hignored w, hR.stem_snd h f hf b.text⟩
  | report r =>
    have hv : (report r).step v a =
        ⟨v.report (r.event a), report r, { a with text := b.text }, true⟩ := by
      rw [step_report, ← htext]
    exact ⟨_, _, b.text, true, hv, step_report r w b,
      hR.report_left (hR.report_right h (r.event b)) (r.event a)⟩
  | pass => exact ⟨v, w, b.text, _, by rw [← htext]; rfl, rfl, h⟩
  | lowercase | strip | charset => exact ⟨v, w, _, _, by rw [step, htext], rfl, h⟩
  | unstopped =>
    exact ⟨v, w, b.text, !b.stopped, by rw [← htext, ← hstopped]; rfl, rfl, h⟩

variable {c : Common}

/-- A stop filter gives the same numbers after the same ones. -/
theorem StopFilter.renumbered_congr (f : StopFilter) {last last' position position' : Option Nat}
    (hlast : c.positions → last = last') (hposition : c.positions → position = position') :
    c.positions → f.renumbered last position = f.renumbered last' position' := by
  intro hc
  rw [hlast hc, hposition hc]

/-- **One worker in two runs.** Tokens that agree are both kept or both dropped, and agree behind the
workers. -/
theorem Worker.agree_step (hR : StemBisimulation owned R) (h : R v w) {k l : Worker}
    (hkl : k.Agree c l) (hstem : k.stemFilters ⊆ owned) {a b : Token} (hab : a.Agree c b) :
    Passed.Agree c (Worker.Agree c) R (k.step v a) (l.step w b) := by
  rcases hkl.cases with ⟨rfl, hstop⟩ | ⟨f, last, last', rfl, rfl, hlast⟩
  · obtain ⟨v', w', text, kept, hv, hw, h'⟩ := k.step_congr hR h hstop hstem hab.text hab.stopped
    rw [hv, hw]
    exact ⟨rfl, hab.withText text, .refl c k, h'⟩
  · rcases step_stop_cases f last v a with
      ⟨hpasses, hv⟩ | ⟨hstops, hmarks, hv⟩ | ⟨hstops, hdrops, hv⟩
    · rw [hv, step_stop_of_not_stops (hab.text ▸ hpasses)]
      have hnumber := f.renumbered_congr hlast hab.position
      refine ⟨rfl, (hab.withStopped false).withPosition fun hc => by rw [hnumber hc],
        ⟨rfl, fun hc => by rw [hnumber hc]⟩, h⟩
    · rw [hv, step_stop_of_marks (hab.text ▸ hstops) (hab.removeStopped ▸ hmarks)]
      exact ⟨rfl, hab.withStopped true, ⟨rfl, fun hc => by rw [hlast hc]⟩, h⟩
    · rw [hv, step_stop_of_drops (hab.text ▸ hstops) (hab.removeStopped ▸ hdrops)]
      exact ⟨rfl, hab, ⟨rfl, fun hc => by rw [hlast hc]⟩, h⟩

/-- **One token in two runs.** -/
theorem agree_passThrough (hR : StemBisimulation owned R) (h : R v w) {mode mode' : String}
    {rs qs : List Running} (hfilters : List.Forall₂ (Running.Agree c mode mode') rs qs)
    (hstem : rs.flatMap Running.stemFilters ⊆ owned) {a b : Token} (hab : a.Agree c b)
    (ha : a.mode = mode) (hb : b.mode = mode') :
    Passed.Agree c (List.Forall₂ (Running.Agree c mode mode')) R (passThrough v a rs)
      (passThrough w b qs) := by
  induction hfilters generalizing v w a b with
  | nil => exact ⟨rfl, hab, .nil, h⟩
  | @cons r q rs qs hrq hrest ih =>
    rw [List.flatMap_cons, List.append_subset] at hstem
    have hworker : (r.worker a.mode).stemFilters ⊆ owned :=
      List.Subset.trans (r.stemFilters_worker a.mode) hstem.1
    have hwork : (r.worker a.mode).Agree c (q.worker b.mode) := by rw [ha, hb]; exact hrq
    obtain ⟨hkept, htoken, hfilter, hworkspace⟩ := Worker.agree_step hR h hwork hworker hab
    -- The tokens keep their modes, for which the next filters come to the same work.
    have ha' : (r.step v a).token.mode = mode := (Worker.sameOrigin_step _ v a).mode.trans ha
    have hb' : (q.step w b).token.mode = mode' := (Worker.sameOrigin_step _ w b).mode.trans hb
    have hpassed := ih hworkspace hstem.2 htoken ha' hb'
    have hkept' : (r.step v a).kept = (q.step w b).kept := hkept
    rw [passThrough, passThrough]
    dsimp only
    rw [← hkept']
    split
    · exact ⟨hpassed.kept, hpassed.token, .cons hfilter hpassed.filter, hpassed.workspace⟩
    · exact ⟨rfl, htoken, .cons hfilter hrest, hworkspace⟩

end Steps

/-! ## Steps of streams -/

/-- The options ask for the same common annotations. -/
structure Options.Agree (c : Common) (o o' : Options) : Prop where
  positions : c.positions → o.positions = o'.positions
  firstPosition : c.positions → o.firstPosition = o'.firstPosition
  offsets : c.offsets → o.offsets = o'.offsets
  firstOffset : c.offsets → o.firstOffset = o'.firstOffset
  unfiltered : c.unfiltered → o.keepUnfiltered = o'.keepUnfiltered

/-- Two records that agree in what a piece does not overwrite. -/
structure Token.Ready (c : Common) (o o' : Options) (a b : Token) : Prop where
  removeStopped : a.removeStopped = b.removeStopped
  position : c.positions → o.positions = false → a.position = b.position
  startOffset : c.offsets → o.offsets = false → a.startOffset = b.startOffset
  endOffset : c.offsets → o.offsets = false → a.endOffset = b.endOffset
  mode_left : a.mode = o.mode
  mode_right : b.mode = o'.mode

variable {c : Common} {o o' : Options}

/-- A piece makes tokens that agree of records that are ready for it. -/
theorem Token.Ready.apply {a b : Token} (h : a.Ready c o o' b) (ho : o.Agree c o') (index : Nat)
    (p : Piece) : ((p.update o index).apply a).Agree c ((p.update o' index).apply b) := by
  rw [Piece.apply_update, Piece.apply_update]
  refine ⟨rfl, rfl, rfl, h.removeStopped, ?_, ?_, ?_, ?_⟩
  · intro hc
    dsimp only
    rw [← ho.positions hc, ← ho.firstPosition hc]
    split
    · rfl
    · next hoff => exact h.position hc (Bool.not_eq_true _ ▸ hoff)
  · intro hc
    dsimp only
    rw [← ho.offsets hc, ← ho.firstOffset hc]
    split
    · rfl
    · next hoff => exact h.startOffset hc (Bool.not_eq_true _ ▸ hoff)
  · intro hc
    dsimp only
    rw [← ho.offsets hc, ← ho.firstOffset hc]
    split
    · rfl
    · next hoff => exact h.endOffset hc (Bool.not_eq_true _ ▸ hoff)
  · intro hc
    dsimp only
    rw [ho.unfiltered hc]

/-- Tokens that agree are ready for the settings of their own modes. -/
theorem Token.Agree.ready {a b : Token} (h : a.Agree c b) (ha : a.mode = o.mode)
    (hb : b.mode = o'.mode) : a.Ready c o o' b :=
  ⟨h.removeStopped, fun hc _ => h.position hc, fun hc _ => h.startOffset hc,
    fun hc _ => h.endOffset hc, ha, hb⟩

/-- Two streams have the same pieces to come, annotated as the options say, and filters that come to
the same work. -/
structure Stream.Agree (c : Common) (o o' : Options) (owned : List StemFilter) (s t : Stream) :
    Prop where
  source : ∃ index pieces, s.pending = Piece.updatesFrom o index pieces ∧
    t.pending = Piece.updatesFrom o' index pieces ∧
    (pieces ≠ [] → s.record.Ready c o o' t.record)
  filters : List.Forall₂ (Running.Agree c o.mode o'.mode) s.filters t.filters
  stems : s.stemFilters ⊆ owned

namespace Stream.Agree

open Workspace

variable {owned : List StemFilter} {R : Workspace → Workspace → Prop} {v w : Workspace}
  {s t : Stream}

/-- **One step of two streams that agree.** Both have a token or neither; the tokens agree, and so do
the streams behind the step. -/
theorem advance (ho : o.Agree c o') (hR : StemBisimulation owned R)
    (h : s.Agree c o o' owned t) (hvw : R v w) :
    (s.advance v).1 = (t.advance w).1 ∧
      ((s.advance v).1 = true →
        (s.advance v).2.1.record.Agree c (t.advance w).2.1.record ∧
          (s.advance v).2.1.record.Ready c o o' (t.advance w).2.1.record) ∧
      Stream.Agree c o o' owned (s.advance v).2.1 (t.advance w).2.1 ∧
      R (s.advance v).2.2 (t.advance w).2.2 := by
  obtain ⟨record, updates, rs⟩ := s
  obtain ⟨record', updates', qs⟩ := t
  obtain ⟨⟨index, pieces, hpending, hpending', hrecord⟩, hfilters, hstems⟩ := h
  dsimp only at hpending hpending' hrecord hfilters
  subst hpending hpending'
  simp only [Stream.advance]
  -- A step goes through all pieces that are dropped, so the induction is on the pieces.
  induction pieces generalizing v w record record' rs qs index with
  | nil =>
    refine ⟨rfl, ?_, ⟨⟨index, [], rfl, rfl, fun hne => absurd rfl hne⟩, hfilters, hstems⟩, hvw⟩
    exact fun hadvanced => absurd hadvanced Bool.false_ne_true
  | cons p rest ih =>
    have hready := hrecord (List.cons_ne_nil p rest)
    have hmode : ((p.update o index).apply record).mode = o.mode := by
      rw [Piece.apply_update]
      exact hready.mode_left
    have hmode' : ((p.update o' index).apply record').mode = o'.mode := by
      rw [Piece.apply_update]
      exact hready.mode_right
    obtain ⟨hkept, htoken, hnext, hworkspace⟩ :=
      agree_passThrough hR hvw hfilters hstems (hready.apply ho index p) hmode hmode'
    have hready' := htoken.ready
      ((sameOrigin_passThrough v ((p.update o index).apply record) rs).mode.trans hmode)
      ((sameOrigin_passThrough w ((p.update o' index).apply record') qs).mode.trans hmode')
    have hstems' := List.Subset.trans
      (stemFilters_passThrough v ((p.update o index).apply record) rs) hstems
    rw [Piece.updatesFrom, Piece.updatesFrom, advanceFrom, advanceFrom, ← hkept]
    split
    · exact ⟨rfl, fun _ => ⟨htoken, hready'⟩,
        ⟨⟨index + 1, rest, rfl, rfl, fun _ => hready'⟩, hnext, hstems'⟩, hworkspace⟩
    · exact ih hworkspace _ _ _ _ hnext (index + 1) (fun _ => hready') hstems'

/-- The tokens of streams that agree, agree one by one. -/
theorem forall₂_take (ho : o.Agree c o') (hR : StemBisimulation owned R)
    (h : s.Agree c o o' owned t) (hvw : R v w) (n : Nat) :
    List.Forall₂ (Token.Agree c) (s.take n v).1 (t.take n w).1 := by
  induction n generalizing v w s t with
  | zero => exact .nil
  | succ n ih =>
    obtain ⟨hfound, htoken, hnext, hworkspace⟩ := h.advance ho hR hvw
    cases hs : (s.advance v).1 with
    | false =>
      rw [take_of_advance_eq_false n hs, take_of_advance_eq_false n (hfound.symm.trans hs)]
      exact .nil
    | true =>
      rw [take_of_advance_eq_true n hs, take_of_advance_eq_true n (hfound.symm.trans hs)]
      exact .cons (htoken hs).1 (ih hnext hworkspace)

/-- Streams that agree give tokens that agree, one by one. -/
theorem forall₂_drain (ho : o.Agree c o') (hR : StemBisimulation owned R)
    (h : s.Agree c o o' owned t) (hvw : R v w) :
    List.Forall₂ (Token.Agree c) (s.drain v).1 (t.drain w).1 := by
  have htake := h.forall₂_take ho hR hvw (s.pending.length + t.pending.length)
  rwa [(take_eq _ v s (Nat.le_add_right _ _)).1, (take_eq _ w t (Nat.le_add_left _ _)).1,
    ← drain_fst, ← drain_fst] at htake

end Stream.Agree

/-! ## Streams of pipelines -/

/-- Only a dispatching filter asks for the mode. -/
theorem Filter.settle_congr {mode mode' : String} {f : Filter} (keepForms : Bool)
    (h : mode = mode' ∨ ∀ d, f ≠ .dispatch d) :
    f.settle keepForms mode = f.settle keepForms mode' := by
  rcases h with rfl | hnever
  · rfl
  · cases f with
    | dispatch d => exact absurd rfl (hnever d)
    | _ => rfl

/-- The streams of a text under two options agree where these ask for the same common annotations and
the same work. -/
theorem Pipeline.agree_streamOfText {p : Pipeline} (htokenize : o.tokenize = o'.tokenize)
    (hremove : o.removeStopped = o'.removeStopped) (hforms : o.keepForms = o'.keepForms)
    (hmode : o.mode = o'.mode ∨ ∀ f ∈ p.filters, ∀ d, f ≠ .dispatch d) (text : String) :
    Stream.Agree c o o' p.stemFilters (p.streamOfText o text) (p.streamOfText o' text) where
  source := by
    refine ⟨0, p.tokenizer.cut o.tokenize text, ?_, ?_, ?_⟩
    · rw [streamOfText_eq, ← Tokenizer.pending_tokenize]
    · rw [streamOfText_eq, htokenize, ← Tokenizer.pending_tokenize]
    · intro hne
      have hne' := hne
      rw [htokenize] at hne'
      rw [streamOfText_eq, streamOfText_eq]
      dsimp only
      rw [(p.tokenizer.record_tokenize o text).resolve_left hne,
        (p.tokenizer.record_tokenize o' text).resolve_left hne']
      exact ⟨hremove, fun _ _ => rfl, fun _ _ => rfl, fun _ _ => rfl, rfl, rfl⟩
  filters := by
    have hactive : p.activeFilters o' = p.activeFilters o := by rw [activeFilters, ← hforms]; rfl
    rw [streamOfText_eq, streamOfText_eq, (p.tokenizer.start_tokenize o text).1,
      (p.tokenizer.start_tokenize o' text).1, hactive, ← hforms]
    refine List.forall₂_map_left_iff.mpr (List.forall₂_map_right_iff.mpr ?_)
    refine List.forall₂_same.mpr fun f hf => ?_
    have hsettle := f.settle_congr o.keepForms
      (hmode.imp_right fun hnever => hnever f (List.mem_filter.mp hf).1)
    rw [Running.Agree, Running.worker_ofFilter, Running.worker_ofFilter, hsettle]
    exact .refl c _
  stems := p.stemFilters_streamOfText o text

end TextAnalysis
