import TextAnalysis.Proofs.Caching
import TextAnalysis.Proofs.Producer

/-!
# Sessions with stem filters

A session makes stem filters, opens streams on pipelines that use them, and goes on with these in any
order: it advances a stream, drops one, asks a filter for a stem, cleans a pipeline or a stage.
All streams share the workspace and with it the caches.

Every stream follows a run of its own: that of the same pipeline with caching disabled, in a workspace
in which nothing else has been done. One action keeps a session valid in this sense
(`Session.Valid.step`), hence so does every list of actions. Main statement:
`stem_caches_do_not_show`.
-/

set_option autoImplicit false

namespace TextAnalysis

/-! ## Actions -/

/-- A stream that has been opened on a pipeline, and what its consumer has seen of it. -/
structure Reading where
  pipeline : Pipeline
  options : Options
  input : Input
  /-- The stream, unless it has been dropped. -/
  stream : Option Stream
  /-- For each step whether there was a token, and the record after it. -/
  seen : List (Bool × Token) := []

/-- The tokens that the consumer has got. -/
def Reading.tokens (r : Reading) : List Token := (r.seen.filter (·.1)).map (·.2)

/-- One more step of a stream, unless it has been dropped. -/
def Reading.advance (w : Workspace) (r : Reading) : Reading × Workspace :=
  match r.stream with
  | some s =>
    let a := s.advance w
    ({ r with stream := some a.2.1, seen := r.seen ++ [(a.1, a.2.1.record)] }, a.2.2)
  | none => (r, w)

/-- A stem that a filter has given for a word. -/
structure Answer where
  filter : StemFilter
  word : String
  stem : String

/-- What can be done in a session. -/
inductive Action where
  /-- Makes a stem filter. -/
  | make (stemmer : Stemmer)
  /-- Makes a stem filter with the settings of another and a cache of its own. -/
  | copy (f : StemFilter)
  /-- Changes what a stem filter leaves alone. -/
  | ignoring (f : StemFilter) (words : List String)
  /-- Changes how many stems the cache of a stem filter may hold. -/
  | bound (f : StemFilter) (limit : Option Nat)
  /-- Opens a stream. -/
  | start (p : Pipeline) (o : Options) (input : Input)
  /-- Takes a step of the stream that has been opened at this place. -/
  | advance (index : Nat)
  | drop (index : Nat)
  /-- Asks a stem filter for a stem. -/
  | stem (f : StemFilter) (word : String)
  | clean (p : Pipeline)
  | cleanStage (s : Stage)

/-- A session as it stands. -/
structure Session where
  workspace : Workspace
  /-- The stem filters that have been made. -/
  filters : List StemFilter := []
  /-- The streams that have been opened, in order. -/
  readings : List Reading := []
  /-- The stems that have been asked for, in order. -/
  answers : List Answer := []

namespace Session

/-- A session in which nothing has been done. -/
def new (stemmers : List (String → String)) : Session := { workspace := { stemmers := stemmers } }

/-- Keeps a stem filter that has been made. -/
def add (s : Session) (made : StemFilter × Workspace) : Session :=
  { s with workspace := made.2, filters := made.1 :: s.filters }

/-- Opens a stream of a pipeline, unless the analysis fails. -/
def start (s : Session) (p : Pipeline) (o : Options) (input : Input) : Session :=
  match p.analyze o input with
  | .ok stream =>
    { s with
      readings :=
        s.readings ++ [{ pipeline := p, options := o, input := input, stream := some stream }] }
  | .error _ => s

/-- One step of a stream. -/
def advance (s : Session) (index : Nat) : Session :=
  match s.readings[index]? with
  | some r =>
    { s with
      workspace := (r.advance s.workspace).2
      readings := s.readings.set index (r.advance s.workspace).1 }
  | none => s

/-- One action. Stem filters come from the session: what is to be done with others, or with pipelines
that use others, is not done. -/
def step (s : Session) : Action → Session
  | .make stemmer => s.add (s.workspace.stemFilter stemmer)
  | .copy f => if f ∈ s.filters then s.add (s.workspace.cloneStem f) else s
  | .ignoring f words => if f ∈ s.filters then s.add (f.ignoring words, s.workspace) else s
  | .bound f limit => if f ∈ s.filters then s.add (f.withLimit limit, s.workspace) else s
  | .start p o input => if p.stemFilters ⊆ s.filters then s.start p o input else s
  | .advance index => s.advance index
  | .drop index =>
    { s with readings := s.readings.modify index fun r => { r with stream := none } }
  | .stem f word =>
    if f ∈ s.filters then
      { s with
        workspace := (s.workspace.stem f word).2
        answers := s.answers ++ [⟨f, word, (s.workspace.stem f word).1⟩] }
    else s
  | .clean p => { s with workspace := p.clean s.workspace }
  | .cleanStage stage => { s with workspace := s.workspace.cleanAll stage.caches }

/-- All actions in order. -/
def run (s : Session) (actions : List Action) : Session := actions.foldl step s

end Session

/-! ## What every stream follows -/

variable {stemmers : List (String → String)} {owned : List StemFilter}

/-- What has been seen of a stream is what the stream `s₀` shows, which its pipeline gives with caching
disabled and which has the workspace for itself; and where `s₀` has come to by then is the stream
without caches. -/
structure Reading.Follows (stemmers : List (String → String)) (owned : List StemFilter)
    (r : Reading) (s₀ : Stream) : Prop where
  source : r.pipeline.uncached.analyze r.options r.input = .ok s₀
  seen : r.seen = Producer.streams.seen r.seen.length { stemmers := stemmers } s₀
  stream : ∀ s, r.stream = some s → s.stemFilters ⊆ owned ∧ ∃ v : Workspace,
    v.stemmers = stemmers ∧
      Producer.streams.after r.seen.length { stemmers := stemmers } s₀ = (s.uncached, v)

namespace Reading.Follows

variable {r : Reading} {s₀ : Stream} {w : Workspace}

/-- A reading goes on to follow its run when more filters have been made. -/
theorem mono (h : r.Follows stemmers owned s₀) {owned' : List StemFilter} (hle : owned ⊆ owned') :
    r.Follows stemmers owned' s₀ where
  source := h.source
  seen := h.seen
  stream s hs := ⟨List.Subset.trans (h.stream s hs).1 hle, (h.stream s hs).2⟩

/-- A reading whose stream has been dropped has still seen what it has seen. -/
theorem drop (h : r.Follows stemmers owned s₀) :
    Reading.Follows stemmers owned { r with stream := none } s₀ where
  source := h.source
  seen := h.seen
  stream s hs := by cases hs

/-- A step in a sound workspace shows what the other run shows at its next step. -/
theorem advance (h : r.Follows stemmers owned s₀) (hw : w.Sound stemmers owned) :
    (r.advance w).1.Follows stemmers owned s₀ ∧ (r.advance w).2.Sound stemmers owned := by
  unfold Reading.advance
  cases hr : r.stream with
  | none => exact ⟨h, hw⟩
  | some s =>
    obtain ⟨hs, v, hv, hafter⟩ := h.stream s hr
    obtain ⟨hsound, hnext⟩ := Stream.sound_advance hw hs
    obtain ⟨v', hv', hstep⟩ := Stream.advance_uncached hw hv hs
    have hlength : (r.seen ++ [((s.advance w).1, (s.advance w).2.1.record)]).length =
        r.seen.length + 1 := by
      simp
    refine ⟨⟨h.source, ?_, ?_⟩, hsound⟩
    · dsimp only
      rw [hlength, Producer.seen_succ, ← h.seen, hafter]
      dsimp only
      rw [hstep]
      rfl
    · intro t ht
      obtain rfl := Option.some.inj ht
      refine ⟨hnext, v', hv', ?_⟩
      dsimp only
      rw [hlength, Producer.after_succ, hafter]
      dsimp only
      rw [hstep]

end Reading.Follows

/-- A stream that has just been opened follows the one of its pipeline without caches. -/
theorem Pipeline.follows_analyze {p : Pipeline} {o : Options} {input : Input} {s : Stream}
    (h : p.analyze o input = .ok s) (hp : p.stemFilters ⊆ owned) :
    Reading.Follows stemmers owned
      { pipeline := p, options := o, input := input, stream := some s } s.uncached := by
  unfold analyze at h
  cases htext : input.decode with
  | error e => rw [htext] at h; cases h
  | ok text =>
    rw [htext] at h
    obtain rfl := Except.ok.inj h
    refine ⟨?_, rfl, ?_⟩
    · unfold analyze
      simp only [htext, streamOfText_uncached]
    · intro t ht
      obtain rfl := Option.some.inj ht
      exact ⟨List.Subset.trans (p.stemFilters_streamOfText o text) hp, _, rfl, rfl⟩

/-- The tokens that a stream shows in some steps are the first of all its tokens. -/
theorem Stream.tokens_seen (n : Nat) (w : Workspace) (s : Stream) :
    ((Producer.streams.seen n w s).filter (·.1)).map (·.2) = (s.drain w).1.take n := by
  rw [drain_fst]
  induction n generalizing w s with
  | zero => rfl
  | succ n ih =>
    cases hs : (s.advance w).1 with
    | false =>
      have hended := Producer.streams.seen_of_ended (w := w) (s := s) hs (n + 1)
      rw [tokens_of_advance_eq_false hs,
        List.filter_eq_nil_iff.mpr fun o ho => by rw [hended o ho]; exact Bool.false_ne_true]
      rfl
    | true =>
      rw [tokens_of_advance_eq_true hs, List.take_succ_cons, ← ih, Producer.seen]
      simp only [Producer.streams, List.filter_cons, hs, ↓reduceIte, List.map_cons]

/-! ## Sessions -/

/-- The workspace is sound for the stem filters of the session, every stream follows a run of its
own, and every answer is a stem. -/
structure Session.Valid (stemmers : List (String → String)) (s : Session) : Prop where
  sound : s.workspace.Sound stemmers s.filters
  readings : ∀ r ∈ s.readings, ∃ s₀, r.Follows stemmers s.filters s₀
  answers : ∀ a ∈ s.answers,
    a.stem = Workspace.computeStem { stemmers := stemmers } a.filter.stemmer a.word

namespace Session.Valid

variable {s : Session}

/-- A new session is valid. -/
theorem new (stemmers : List (String → String)) : (Session.new stemmers).Valid stemmers where
  sound := .start stemmers
  readings := by simp [Session.new]
  answers := by simp [Session.new]

/-- Only the caches have changed. -/
theorem withWorkspace (h : s.Valid stemmers) {w : Workspace} (hw : w.Sound stemmers s.filters) :
    Session.Valid stemmers { s with workspace := w } where
  sound := hw
  readings := h.readings
  answers := h.answers

/-- It stays valid when a filter is made in a sound workspace, -/
theorem add (h : s.Valid stemmers) {made : StemFilter × Workspace}
    (hmade : made.2.Sound stemmers (made.1 :: s.filters)) : (s.add made).Valid stemmers where
  sound := hmade
  readings r hr := by
    obtain ⟨s₀, hfollows⟩ := h.readings r hr
    exact ⟨s₀, hfollows.mono (List.subset_cons_self _ _)⟩
  answers := h.answers

/-- when a stream is opened, -/
theorem start (h : s.Valid stemmers) {p : Pipeline} (hp : p.stemFilters ⊆ s.filters)
    (o : Options) (input : Input) : (s.start p o input).Valid stemmers := by
  unfold Session.start
  split
  · next stream hstream =>
    refine ⟨h.sound, ?_, h.answers⟩
    intro r hr
    rcases List.mem_append.mp hr with hold | hnew
    · exact h.readings r hold
    · obtain rfl := List.mem_singleton.mp hnew
      exact ⟨stream.uncached, p.follows_analyze hstream hp⟩
  · exact h

/-- when a stream takes a step, -/
theorem advance (h : s.Valid stemmers) (index : Nat) : (s.advance index).Valid stemmers := by
  unfold Session.advance
  split
  · next r hr =>
    obtain ⟨s₀, hfollows⟩ := h.readings r (List.mem_of_getElem? hr)
    obtain ⟨hnext, hsound⟩ := hfollows.advance h.sound
    refine ⟨hsound, ?_, h.answers⟩
    intro q hq
    rcases List.mem_or_eq_of_mem_set hq with hold | rfl
    · exact h.readings q hold
    · exact ⟨s₀, hnext⟩
  · exact h

/-- when one is dropped, -/
theorem drop (h : s.Valid stemmers) (index : Nat) : (s.step (.drop index)).Valid stemmers where
  sound := h.sound
  readings r hr := by
    obtain ⟨i, hi⟩ := List.getElem?_of_mem hr
    dsimp only [step] at hi
    rw [List.getElem?_modify] at hi
    obtain ⟨q, hq, hqr⟩ := Option.map_eq_some_iff.mp hi
    obtain ⟨s₀, hfollows⟩ := h.readings q (List.mem_of_getElem? hq)
    split at hqr
    · exact ⟨s₀, hqr ▸ hfollows.drop⟩
    · exact ⟨s₀, hqr ▸ hfollows⟩
  answers := h.answers

/-- and when a word is stemmed directly. -/
theorem stem (h : s.Valid stemmers) {f : StemFilter} (hf : f ∈ s.filters) (word : String) :
    Session.Valid stemmers
      { s with
        workspace := (s.workspace.stem f word).2
        answers := s.answers ++ [⟨f, word, (s.workspace.stem f word).1⟩] } where
  sound := h.sound.stem_snd hf word
  readings := h.readings
  answers a ha := by
    rcases List.mem_append.mp ha with hold | hnew
    · exact h.answers a hold
    · obtain rfl := List.mem_singleton.mp hnew
      dsimp only
      rw [h.sound.stem_fst hf word]
      exact congrFun (congrFun (Workspace.computeStem_congr h.sound.stemmers_eq) f.stemmer) word

/-- Every action keeps a session valid. -/
theorem step (h : s.Valid stemmers) (a : Action) : (s.step a).Valid stemmers := by
  cases a with
  | make stemmer => exact h.add (h.sound.allocate rfl)
  | copy f =>
    dsimp only [Session.step]
    split
    · exact h.add (h.sound.allocate rfl)
    · exact h
  | ignoring f words =>
    dsimp only [Session.step]
    split
    · next hf => exact h.add (h.sound.adjust hf rfl rfl)
    · exact h
  | bound f limit =>
    dsimp only [Session.step]
    split
    · next hf => exact h.add (h.sound.adjust hf rfl rfl)
    · exact h
  | start p o input =>
    dsimp only [Session.step]
    split
    · next hp => exact h.start hp o input
    · exact h
  | advance index => exact h.advance index
  | drop index => exact h.drop index
  | stem f word =>
    dsimp only [Session.step]
    split
    · next hf => exact h.stem hf word
    · exact h
  | clean p => exact h.withWorkspace (h.sound.cleanAll _)
  | cleanStage stage => exact h.withWorkspace (h.sound.cleanAll _)

/-- **A session is valid after any actions.** -/
theorem run (h : s.Valid stemmers) (actions : List Action) : (s.run actions).Valid stemmers := by
  unfold Session.run
  induction actions generalizing s with
  | nil => exact h
  | cons a rest ih => exact ih (h.step a)

end Session.Valid

/-- **Stem caches do not show.** Whatever has been done in a session, each of its streams has shown
what the stream of the same pipeline with caching disabled, for the same input and options, shows in
as many steps where nothing has been done before; its tokens are the first of all tokens of that
stream. And every stem that a filter has given is the stem that its stemmer computes. -/
theorem stem_caches_do_not_show (stemmers : List (String → String)) (actions : List Action) :
    let fresh : Workspace := { stemmers := stemmers }
    let s := (Session.new stemmers).run actions
    (∀ r ∈ s.readings, ∃ s₀, r.pipeline.uncached.analyze r.options r.input = .ok s₀ ∧
      r.seen = Producer.streams.seen r.seen.length fresh s₀ ∧
      r.tokens = (s₀.drain fresh).1.take r.seen.length) ∧
    ∀ a ∈ s.answers, a.stem = fresh.computeStem a.filter.stemmer a.word := by
  have hvalid := (Session.Valid.new stemmers).run actions
  refine ⟨?_, hvalid.answers⟩
  intro r hr
  obtain ⟨s₀, hfollows⟩ := hvalid.readings r hr
  refine ⟨s₀, hfollows.source, hfollows.seen, ?_⟩
  rw [Reading.tokens, hfollows.seen, Stream.tokens_seen, ← hfollows.seen]

-- Three streams share a cache for one stem, which the second flushes and a cleaning empties.
example :
    let f : StemFilter := { stemmer := .custom "hyphen" 0, limit := some 1, cache := 0 }
    let p : Pipeline := ⟨"words", .whole, [.stem f]⟩
    let s := (Session.new [fun word => word ++ "-"]).run
      [.make f.stemmer, .bound { f with limit := some defaultCacheSize } (some 1),
        .start p {} (.text "alfa"), .start p {} (.text "bravo"), .start p {} (.text "alfa"),
        .advance 0, .advance 1, .clean p, .drop 0, .advance 2]
    s.readings.map (fun r => r.tokens.map Token.text) = [["alfa-"], ["bravo-"], ["alfa-"]] := by
  decide

end TextAnalysis
