import Mathlib.Data.Fintype.EquivFin
import Mathlib.Data.List.Forall2
import Mathlib.Data.List.NodupEquivFin
import TextAnalysis.Proofs.Draining

/-!
# Where tokens come from

Filters do not invent, repeat or reorder tokens. Every token that comes out of a pipeline is one that
its tokenizer has cut, in the order in which it has cut them, and it still has the annotations of
that token. Only stop filters lose tokens, and only where the options tell them to drop.

What a filter leaves alone is `Token.SameOrigin`. One step of a worker keeps it
(`Worker.sameOrigin_step`), so the record of a pipeline and the record of its tokenizer, which takes
the same updates, stay related along a whole run. Main statement: `tokens_keep_origin`.
-/

set_option autoImplicit false

namespace TextAnalysis

/-- Two tokens agree in everything that filters leave alone. -/
structure Token.SameOrigin (a b : Token) : Prop where
  unfiltered : a.unfiltered = b.unfiltered
  boost : a.boost = b.boost
  startOffset : a.startOffset = b.startOffset
  endOffset : a.endOffset = b.endOffset
  attributes : a.attributes = b.attributes
  mode : a.mode = b.mode
  removeStopped : a.removeStopped = b.removeStopped

namespace Token.SameOrigin

/-- A token has its own origin, -/
theorem refl (t : Token) : t.SameOrigin t := ⟨rfl, rfl, rfl, rfl, rfl, rfl, rfl⟩

/-- origins are shared both ways, -/
theorem symm {a b : Token} (h : a.SameOrigin b) : b.SameOrigin a where
  unfiltered := h.unfiltered.symm
  boost := h.boost.symm
  startOffset := h.startOffset.symm
  endOffset := h.endOffset.symm
  attributes := h.attributes.symm
  mode := h.mode.symm
  removeStopped := h.removeStopped.symm

/-- and along a chain of tokens. -/
theorem trans {a b c : Token} (hab : a.SameOrigin b) (hbc : b.SameOrigin c) : a.SameOrigin c where
  unfiltered := hab.unfiltered.trans hbc.unfiltered
  boost := hab.boost.trans hbc.boost
  startOffset := hab.startOffset.trans hbc.startOffset
  endOffset := hab.endOffset.trans hbc.endOffset
  attributes := hab.attributes.trans hbc.attributes
  mode := hab.mode.trans hbc.mode
  removeStopped := hab.removeStopped.trans hbc.removeStopped

/-- The same update on records of the same origin gives tokens of the same origin. -/
theorem apply {a b : Token} (h : a.SameOrigin b) (u : Update) :
    (u.apply a).SameOrigin (u.apply b) := by
  cases u with
  | replace t => exact refl t
  | load text keepUnfiltered position offsets =>
    obtain ⟨-, -, hstart, hend, hattributes, hmode, hremove⟩ := h
    cases position <;> cases offsets <;>
      exact ⟨rfl, rfl, by simp [Update.apply, Token.load, hstart],
        by simp [Update.apply, Token.load, hend], hattributes, hmode, hremove⟩

end Token.SameOrigin

/-! ## One token -/

/-- A stop filter leaves the origin alone. -/
theorem StopFilter.sameOrigin_apply (f : StopFilter) (last : Option Nat) (t : Token) :
    (f.apply last t).1.SameOrigin t := by
  unfold StopFilter.apply
  split
  · split <;> exact ⟨rfl, rfl, rfl, rfl, rfl, rfl, rfl⟩
  · dsimp only
    split <;> exact ⟨rfl, rfl, rfl, rfl, rfl, rfl, rfl⟩

/-- A stop filter keeps every token that says that it is not to be dropped. -/
theorem StopFilter.kept_apply (f : StopFilter) (last : Option Nat) {t : Token}
    (h : t.removeStopped = false) : (f.apply last t).2.2 = true := by
  unfold StopFilter.apply
  split
  · rw [h]
    rfl
  · dsimp only
    split <;> rfl

namespace Worker

/-- So does every worker. -/
theorem sameOrigin_step (k : Worker) (w : Workspace) (t : Token) :
    (k.step w t).token.SameOrigin t := by
  cases k with
  | stop f last => exact f.sameOrigin_apply last t
  | stem f =>
    unfold step
    dsimp only
    split <;> exact ⟨rfl, rfl, rfl, rfl, rfl, rfl, rfl⟩
  | report r =>
    unfold step
    dsimp only
    split <;> exact .refl t
  | pass | lowercase | strip | charset | unstopped => exact ⟨rfl, rfl, rfl, rfl, rfl, rfl, rfl⟩

/-- A worker of a filter keeps every token that says that it is not to be dropped. -/
theorem kept_step {k : Worker} (hk : k ≠ .unstopped) (w : Workspace) {t : Token}
    (h : t.removeStopped = false) : (k.step w t).kept = true := by
  cases k with
  | stop f last => exact f.kept_apply last h
  | stem f =>
    unfold step
    dsimp only
    split <;> rfl
  | report r =>
    unfold step
    dsimp only
    split <;> rfl
  | pass | lowercase | strip | charset => rfl
  | unstopped => exact absurd rfl hk

/-- No step turns a worker into one that drops marked tokens. -/
theorem filter_step_ne_unstopped {k : Worker} (hk : k ≠ .unstopped) (w : Workspace) (t : Token) :
    (k.step w t).filter ≠ .unstopped := by
  cases k with
  | stem f =>
    unfold step
    dsimp only
    split <;> simp
  | report r =>
    unfold step
    dsimp only
    split <;> simp
  | pass | lowercase | strip | charset | stop => simp [step]
  | unstopped => exact absurd rfl hk

end Worker

mutual

/-- No filter settles into such a worker, -/
theorem Filter.settle_ne_unstopped (keepForms : Bool) (mode : String) :
    ∀ f : Filter, f.settle keepForms mode ≠ .unstopped
  | .dispatch d => d.settle_ne_unstopped keepForms mode
  | .pass | .lowercase | .strip => nofun
  | .charset _ | .stop _ | .stem _ | .report _ => nofun

/-- and no dispatching filter. -/
theorem Dispatch.settle_ne_unstopped (keepForms : Bool) (mode : String) :
    ∀ d : Dispatch, d.settle keepForms mode ≠ .unstopped
  | .otherwise f => by
    rw [Dispatch.settle]
    split
    · nofun
    · exact f.settle_ne_unstopped keepForms mode
  | .mode m f rest => by
    rw [Dispatch.settle]
    split
    · split
      · nofun
      · exact f.settle_ne_unstopped keepForms mode
    · exact rest.settle_ne_unstopped keepForms mode

end

/-- A filter on a stream that comes from a filter, so that it drops no token that is to be kept. -/
def Running.OfFilter (r : Running) : Prop := ∀ mode, r.worker mode ≠ .unstopped

/-- A filter that is put on a stream comes from a filter. -/
theorem Running.ofFilter_ofFilter (keepForms : Bool) (f : Filter) :
    (Running.ofFilter keepForms f).OfFilter := by
  intro mode
  rw [Running.worker_ofFilter]
  exact f.settle_ne_unstopped keepForms mode

/-- Tokens leave the filters as they have come in what belongs to their origin. -/
theorem sameOrigin_passThrough (w : Workspace) (t : Token) (filters : List Running) :
    (passThrough w t filters).token.SameOrigin t := by
  induction filters generalizing w t with
  | nil => exact .refl t
  | cons r rest ih =>
    have hstep : (r.step w t).token.SameOrigin t := Worker.sameOrigin_step _ w t
    rw [passThrough]
    dsimp only
    split
    · exact (ih _ _).trans hstep
    · exact hstep

/-- Filters that come from filters stay so, and keep every token that is not to be dropped. -/
theorem kept_passThrough (w : Workspace) {t : Token} (ht : t.removeStopped = false)
    {filters : List Running} (hfilters : ∀ r ∈ filters, r.OfFilter) :
    (passThrough w t filters).kept = true ∧
      ∀ r ∈ (passThrough w t filters).filter, r.OfFilter := by
  induction filters generalizing w t with
  | nil => exact ⟨rfl, by simp [passThrough]⟩
  | cons r rest ih =>
    have hr := hfilters r List.mem_cons_self
    have hkept : (r.step w t).kept = true := Worker.kept_step (hr t.mode) w ht
    have hremove : (r.step w t).token.removeStopped = false :=
      (Worker.sameOrigin_step _ w t).removeStopped.trans ht
    have hnext : (r.step w t).filter.OfFilter := fun _ =>
      Worker.filter_step_ne_unstopped (hr t.mode) w t
    obtain ⟨hrest, hrests⟩ := ih (r.step w t).workspace hremove
      fun q hq => hfilters q (List.mem_cons_of_mem _ hq)
    rw [passThrough]
    simp only [hkept, ↓reduceIte]
    refine ⟨hrest, ?_⟩
    intro q hq
    rcases List.mem_cons.mp hq with rfl | hq
    · exact hnext
    · exact hrests q hq

/-! ## All tokens -/

/-- The tokens behind filters are some of the tokens in front of them, in order. -/
theorem sublistForall₂_tokensFrom (w w' : Workspace) {record base : Token}
    (h : record.SameOrigin base) (filters : List Running) (updates : List Update) :
    List.SublistForall₂ Token.SameOrigin (tokensFrom w record filters updates)
      (tokensFrom w' base [] updates) := by
  induction updates generalizing w w' record base filters with
  | nil => exact .nil
  | cons u rest ih =>
    have hpass := (sameOrigin_passThrough w (u.apply record) filters).trans (h.apply u)
    rw [tokensFrom, tokensFrom]
    simp only [passThrough, ↓reduceIte]
    split
    · exact .cons hpass (ih _ _ hpass _)
    · exact .cons_right (ih _ _ hpass _)

/-- Where no token is to be dropped, every update leaves a token behind the filters. -/
theorem length_tokensFrom (w : Workspace) {record : Token} (hrecord : record.removeStopped = false)
    {filters : List Running} (hfilters : ∀ r ∈ filters, r.OfFilter) {updates : List Update}
    (hupdates : ∀ u ∈ updates, ∀ t, (u.apply t).removeStopped = t.removeStopped) :
    (tokensFrom w record filters updates).length = updates.length := by
  induction updates generalizing w record filters with
  | nil => rfl
  | cons u rest ih =>
    have hload : (u.apply record).removeStopped = false :=
      (hupdates u List.mem_cons_self record).trans hrecord
    obtain ⟨hkept, hnext⟩ := kept_passThrough w hload hfilters
    have hpass := (sameOrigin_passThrough w (u.apply record) filters).removeStopped.trans hload
    rw [tokensFrom]
    simp only [hkept, ↓reduceIte, List.length_cons]
    rw [ih _ hpass hnext fun v hv => hupdates v (List.mem_cons_of_mem _ hv)]

/-- The updates of pieces leave it to the record whether tokens are to be dropped. -/
theorem Piece.removeStopped_of_mem_updatesFrom {o : Options} {index : Nat} {pieces : List Piece}
    {u : Update} (hu : u ∈ updatesFrom o index pieces) (t : Token) :
    (u.apply t).removeStopped = t.removeStopped := by
  induction pieces generalizing index with
  | nil => simp [updatesFrom] at hu
  | cons p rest ih =>
    rcases List.mem_cons.mp hu with rfl | hu
    · cases hp : o.positions <;> cases ho : o.offsets <;>
        simp [Piece.update, Update.apply, Token.load, hp, ho]
    · exact ih hu

/-- Lists related in order give a strictly increasing map of their indices. -/
theorem exists_strictMono_of_sublistForall₂ {α β : Type} {R : α → β → Prop} {l : List α}
    {l' : List β} (h : List.SublistForall₂ R l l') :
    ∃ φ : Fin l.length → Fin l'.length, StrictMono φ ∧ ∀ i, R (l.get i) (l'.get (φ i)) := by
  obtain ⟨k, hk, hsub⟩ := List.sublistForall₂_iff.mp h
  obtain ⟨φ, hφ⟩ := List.sublist_iff_exists_fin_orderEmbedding_get_eq.mp hsub
  refine ⟨fun i => φ (Fin.cast hk.length_eq i), ?_, ?_⟩
  · intro i j hij
    exact φ.strictMono hij
  · intro i
    rw [← hφ]
    exact hk.get i.isLt (hk.length_eq ▸ i.isLt)

namespace Pipeline

/-- The tokens of a text are some of those that the tokenizer cuts, in order. -/
theorem sublistForall₂_drain (p : Pipeline) (o : Options) (text : String) (w w' : Workspace) :
    List.SublistForall₂ Token.SameOrigin ((p.streamOfText o text).drain w).1
      (((ofTokenizer p.tokenizer).streamOfText o text).drain w').1 := by
  rw [Stream.drain_fst, Stream.drain_fst, Stream.tokens, Stream.tokens, streamOfText_eq,
    streamOfText_eq]
  simp only [ofTokenizer, activeFilters, List.filter_nil, List.map_nil, List.append_nil,
    (p.tokenizer.start_tokenize o text).1]
  exact sublistForall₂_tokensFrom w w' (.refl _) _ _

/-- Where no token is to be dropped, there are as many tokens as the tokenizer writes. -/
theorem length_drain (p : Pipeline) {o : Options} (ho : o.removeStopped = false) (text : String)
    (w : Workspace) :
    ((p.streamOfText o text).drain w).1.length =
      (p.tokenizer.tokenize o text).pending.length := by
  obtain ⟨hfilters, hempty | ⟨hrecord, pieces, hpending⟩⟩ := p.tokenizer.start_tokenize o text
  · rw [Stream.drain_fst, Stream.tokens, streamOfText_eq, hempty]
    rfl
  · rw [Stream.drain_fst, Stream.tokens, streamOfText_eq, hfilters, List.nil_append]
    apply length_tokensFrom w (hrecord.trans ho)
    · intro r hr
      obtain ⟨f, -, rfl⟩ := List.mem_map.mp hr
      exact Running.ofFilter_ofFilter o.keepForms f
    · intro u hu t
      rw [hpending] at hu
      exact Piece.removeStopped_of_mem_updatesFrom hu t

end Pipeline

/-- **Filters do not invent, repeat or reorder tokens, and lose none that is not to be dropped.** The
places of the tokens of a pipeline map, strictly increasing, to the places of the tokens that its
tokenizer alone cuts from the same input under the same options, and the tokens at these places agree
in all that filters leave alone. Where the options do not ask to drop stopped tokens, the map reaches
every token of the tokenizer. Both streams have ended by then, and where the input is no text both
fail in the same way. -/
theorem tokens_keep_origin (p : Pipeline) (o : Options) (input : Input) (w w' : Workspace) :
    match p.analyze o input, (Pipeline.ofTokenizer p.tokenizer).analyze o input with
    | .ok s, .ok b =>
      (∃ φ : Fin (s.drain w).1.length → Fin (b.drain w').1.length,
        StrictMono φ ∧
        (∀ i, ((s.drain w).1.get i).SameOrigin ((b.drain w').1.get (φ i))) ∧
        (o.removeStopped = false → Function.Bijective φ)) ∧
      (∀ v, ((s.drain w).2.1.advance v).1 = false) ∧ ∀ v, ((b.drain w').2.1.advance v).1 = false
    | .error e, .error e' => e = e'
    | _, _ => False := by
  unfold Pipeline.analyze
  cases input.decode with
  | error e => rfl
  | ok text =>
    refine ⟨?_, fun v => Stream.drain_ended w v _, fun v => Stream.drain_ended w' v _⟩
    obtain ⟨φ, hmono, horigin⟩ :=
      exists_strictMono_of_sublistForall₂ (p.sublistForall₂_drain o text w w')
    refine ⟨φ, hmono, horigin, ?_⟩
    intro ho
    -- A strictly increasing map between lists of the same length leaves no place out.
    have hlength := (p.length_drain ho text w).trans
      ((Pipeline.ofTokenizer p.tokenizer).length_drain ho text w').symm
    rw [Fintype.bijective_iff_injective_and_card]
    exact ⟨hmono.injective, by rw [Fintype.card_fin, Fintype.card_fin, hlength]⟩

end TextAnalysis
