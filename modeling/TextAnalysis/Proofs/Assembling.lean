import TextAnalysis.Proofs.Composing
import TextAnalysis.Proofs.Presets
import TextAnalysis.Proofs.Text.Decoding

/-!
# Assembling pipelines

An assembly is a pipeline whose type says nothing of its stages: a name, and stages in any order.
Its analysis looks for the tokenizer when it starts, and has a failure of its own for stages that do
not begin with one.

No way of obtaining a pipeline leads there. Some ways check the stages, some add to what has been
checked, some splice whole pipelines; by induction on them every assembly that can be obtained is the
one of a `Pipeline` (`Obtained.exists_pipeline`), with which its analysis agrees (`run_analyze`).
What is left to fail is the input, before anything else is done. Main statement:
`analysis_fails_only_up_front`.
-/

set_option autoImplicit false

namespace TextAnalysis

/-- Stages under a name. -/
structure Assembly where
  name : String
  stages : List Stage

namespace Assembly

/-- A tokenizer alone, under its name. -/
def ofTokenizer (t : Tokenizer) : Assembly := ⟨"pipeline_" ++ t.name, [.tokenizer t]⟩

/-- One more filter behind the stages, whatever these are. -/
def addFilter (a : Assembly) (f : Filter) : Assembly :=
  { a with stages := a.stages ++ [.filter f] }

/-- The same stages under another name. -/
def withName (a : Assembly) (name : String) : Assembly := { a with name := name }

/-- The stages, where the first and no other one is a tokenizer. -/
def ofStages (stages : List Stage) : Except Failure Assembly :=
  let names := stages.map Stage.name
  match stages with
  | [] => .error (.composition .noStage)
  | first :: rest =>
    if !first.isTokenizer then .error (.composition (.startsWithFilter first.name names))
    else if rest.any Stage.isTokenizer then .error (.composition (.lateTokenizer names))
    else .ok ⟨"pipeline_" ++ first.name, stages⟩

/-- The stages of a chain, unless it has a fault. -/
def ofChain (c : Chain) : Except Failure Assembly :=
  match c.fault with
  | some fault => .error (.composition fault)
  | none => ofStages c.stages

/-- The stream that the first stage opens on a text and all later filters act on, except for those
that the options leave out. -/
def analyze (a : Assembly) (o : Options) (input : Input) : Build Stream := do
  let text ← Build.ofExcept input.decode
  match a.stages.head?.bind Stage.asTokenizer? with
  | none => throw (.composition .noTokenizer)
  | some t =>
    return (a.stages.tail.filterMap Stage.asFilter?).foldl
      (fun s f => if o.keepForms && f.isMorph then s else s.through o.keepForms f)
      (t.tokenize o text)

/-- An analysis, and all tokens of its stream. -/
def tokens (a : Assembly) (o : Options) (input : Input) : Build (List Token) := do
  let s ← a.analyze o input
  let (tokens, _, w) := s.drain (← get)
  set w
  return tokens

end Assembly

/-- The assembly with the stages of a pipeline. -/
def Pipeline.assembly (p : Pipeline) : Assembly := ⟨p.name, p.stages⟩

/-- The assemblies that can be obtained. A chain may be of any stages, in any order and with or
without a fault; that it can be built is what admits it. A copy of a pipeline is the same value. -/
inductive Assembly.Obtained : Assembly → Prop where
  | ofTokenizer (t : Tokenizer) : Obtained (.ofTokenizer t)
  | addFilter {a : Assembly} (f : Filter) : Obtained a → Obtained (a.addFilter f)
  | withName {a : Assembly} (name : String) : Obtained a → Obtained (a.withName name)
  | ofStages {stages : List Stage} {a : Assembly} : Assembly.ofStages stages = .ok a → Obtained a
  | ofChain {c : Chain} {a : Assembly} : Assembly.ofChain c = .ok a → Obtained a
  | preset (s : Preset) (w : Workspace) {p : Pipeline} :
    (s.build.run w).1 = .ok p → Obtained p.assembly

/-! ## Assemblies of pipelines -/

namespace Pipeline

/-- Seen from outside, a tokenizer alone is the assembly of this tokenizer. -/
theorem assembly_ofTokenizer (t : Tokenizer) :
    (ofTokenizer t).assembly = Assembly.ofTokenizer t := rfl

/-- Adding a filter and looking from outside can change places. -/
theorem assembly_addFilter (p : Pipeline) (f : Filter) :
    (p.addFilter f).assembly = p.assembly.addFilter f := by
  simp [assembly, addFilter, stages, Assembly.addFilter]

/-- So can giving a name. -/
theorem assembly_withName (p : Pipeline) (name : String) :
    (p.withName name).assembly = p.assembly.withName name := rfl

/-- The filters of stages are missing exactly where one of the stages is a tokenizer. -/
theorem any_isTokenizer_of_filtersOf? (stages : List Stage) :
    stages.any Stage.isTokenizer = (filtersOf? stages).isNone := by
  induction stages with
  | nil => rfl
  | cons s rest ih => cases s <;> simp [filtersOf?, Stage.isTokenizer, ih]

/-- Stages that are checked one after the other pass exactly where they make a pipeline, and fail in
the same way. -/
theorem map_assembly_ofStages (stages : List Stage) :
    (ofStages stages).map assembly = Assembly.ofStages stages := by
  unfold ofStages Assembly.ofStages
  cases stages with
  | nil => rfl
  | cons s rest =>
    cases s with
    | filter f => rfl
    | tokenizer t =>
      dsimp only
      rw [any_isTokenizer_of_filtersOf?]
      cases h : filtersOf? rest with
      | none => rfl
      | some fs =>
        rw [(filtersOf?_eq_some_iff rest fs).mp h]
        rfl

/-- Seen from outside, what a chain builds is the assembly of this chain. -/
theorem map_assembly_build (c : Chain) : c.build.map assembly = Assembly.ofChain c := by
  unfold Chain.build Assembly.ofChain
  cases c.fault with
  | none => exact map_assembly_ofStages c.stages
  | some fault => rfl

/-- The stages behind the first are the filters. -/
theorem filterMap_asFilter?_stages (p : Pipeline) :
    p.stages.tail.filterMap Stage.asFilter? = p.filters := by
  simp [stages, Stage.asFilter?, Function.comp_def]

/-- Filters that are passed over one by one are filters that are left out in advance. -/
theorem foldl_through (p : Pipeline) (o : Options) (text : String) :
    p.filters.foldl
        (fun s f => if o.keepForms && f.isMorph then s else s.through o.keepForms f)
        (p.tokenizer.tokenize o text) =
      p.streamOfText o text := by
  rw [streamOfText, activeFilters, List.foldl_filter]
  congr 1
  funext s f
  cases o.keepForms && f.isMorph <;> rfl

end Pipeline

namespace Assembly

/-- Analysing a pipeline seen from outside is analysing the pipeline, and leaves the workspace
alone. -/
theorem run_analyze (p : Pipeline) (o : Options) (input : Input) (w : Workspace) :
    (p.assembly.analyze o input).run w = (p.analyze o input, w) := by
  unfold analyze
  rw [Build.run_bind]
  unfold Pipeline.analyze
  cases input.decode with
  | error e => rfl
  | ok text =>
    have hfilters : p.assembly.stages.tail.filterMap Stage.asFilter? = p.filters :=
      p.filterMap_asFilter?_stages
    rw [hfilters]
    exact congrArg (fun s => (Except.ok s, w)) (p.foldl_through o text)

/-- Every way of obtaining an assembly leads to one of a pipeline. -/
theorem Obtained.exists_pipeline {a : Assembly} (h : a.Obtained) :
    ∃ p : Pipeline, p.assembly = a := by
  have hchecked : ∀ {r : Except Failure Pipeline} {a : Assembly},
      r.map Pipeline.assembly = .ok a → ∃ p : Pipeline, p.assembly = a := by
    intro r a hr
    cases r with
    | ok p => exact ⟨p, Except.ok.inj hr⟩
    | error e => cases hr
  induction h with
  | ofTokenizer t => exact ⟨.ofTokenizer t, Pipeline.assembly_ofTokenizer t⟩
  | addFilter f _ ih =>
    obtain ⟨p, rfl⟩ := ih
    exact ⟨p.addFilter f, p.assembly_addFilter f⟩
  | withName name _ ih =>
    obtain ⟨p, rfl⟩ := ih
    exact ⟨p.withName name, p.assembly_withName name⟩
  | ofStages hs => exact hchecked (Pipeline.map_assembly_ofStages _ ▸ hs)
  | ofChain hc => exact hchecked (Pipeline.map_assembly_build _ ▸ hc)
  | preset s w _ => exact ⟨_, rfl⟩

/-- The assemblies that can be obtained are those of pipelines. -/
theorem obtained_iff (a : Assembly) : a.Obtained ↔ ∃ p : Pipeline, p.assembly = a := by
  refine ⟨Obtained.exists_pipeline, ?_⟩
  rintro ⟨p, rfl⟩
  have hstages : ofStages p.stages =
      .ok (p.withName ("pipeline_" ++ p.tokenizer.name)).assembly := by
    rw [← Pipeline.map_assembly_ofStages,
      (Pipeline.ofStages_eq_ok_iff p.stages _).mpr ⟨p.tokenizer, p.filters, rfl, rfl⟩]
    rfl
  exact (Obtained.ofStages hstages).withName p.name

end Assembly

/-! ## What an analysis answers -/

namespace Input

/-- Bytes are decoded as the text reader decodes them. -/
theorem decode_bytes (bytes : List UInt8) :
    decode (.bytes bytes) = (Text.decode bytes).mapError .encoding := by
  simp only [decode]
  cases Text.decode bytes <;> rfl

/-- Bytes are decoded as a text exactly where they encode it, -/
theorem decode_bytes_eq_ok_iff (bytes : List UInt8) (s : String) :
    decode (.bytes bytes) = .ok s ↔ bytes.toByteArray = s.toByteArray := by
  rw [← Text.decode_eq_ok_iff, decode_bytes]
  cases Text.decode bytes <;> simp [Except.mapError]

/-- and fail exactly where they encode none. -/
theorem exists_decode_bytes_eq_error_iff (bytes : List UInt8) :
    (∃ e, decode (.bytes bytes) = .error e) ↔ ¬ bytes.toByteArray.IsValidUTF8 := by
  rw [← Text.exists_decode_eq_ok_iff, decode_bytes]
  cases Text.decode bytes <;> simp [Except.mapError]

/-- A failure to decode says that it is about the encoding. -/
theorem isEncoding_of_decode {input : Input} {e : Failure} (h : input.decode = .error e) :
    e.isEncoding = true := by
  cases input with
  | text s => cases h
  | bytes b =>
    rw [decode_bytes] at h
    cases hb : Text.decode b with
    | ok s => rw [hb] at h; cases h
    | error fault =>
      rw [hb] at h
      obtain rfl := Except.error.inj h
      rfl

end Input

namespace Pipeline

/-- An input that is a text is analysed as this text. -/
theorem analyze_eq_ok {p : Pipeline} {o : Options} {input : Input} {s : String}
    (h : input.decode = .ok s) : p.analyze o input = .ok (p.streamOfText o s) := by
  unfold analyze
  rw [h]

/-- Only an input that cannot be decoded fails, and it fails as decoding does. -/
theorem analyze_eq_error_iff (p : Pipeline) (o : Options) (input : Input) (e : Failure) :
    p.analyze o input = .error e ↔ input.decode = .error e := by
  unfold analyze
  cases input.decode <;> simp

end Pipeline

namespace Assembly

variable {a : Assembly} {o : Options} {input : Input} {w : Workspace}

/-- An analysis that fails leaves the workspace as it is. -/
theorem run_tokens_of_error {e : Failure} (h : (a.analyze o input).run w = (.error e, w)) :
    (a.tokens o input).run w = (.error e, w) := by
  unfold tokens
  rw [Build.run_bind, h]

/-- An analysis that begins drains its stream. -/
theorem run_tokens_of_ok {s : Stream} (h : (a.analyze o input).run w = (.ok s, w)) :
    (a.tokens o input).run w = (.ok (s.drain w).1, (s.drain w).2.2) := by
  unfold tokens
  rw [Build.run_bind, h]
  rfl

/-- **Analysis fails up front or not at all.** However an assembly has been obtained, it is that of
a pipeline: a tokenizer comes first and only filters follow. So its analysis is that of the pipeline
and never misses the tokenizer. It fails exactly on bytes that are no well-formed UTF-8, because they
are not, and leaves the workspace as it has found it: no token has been produced, nothing reported and
no stem stored. On the bytes of a text it opens the very stream that it opens on the text, and
gives the same tokens with the same effect. -/
theorem analysis_fails_only_up_front (h : a.Obtained) :
    ((∃ t, a.stages.head? = some (.tokenizer t)) ∧ ∀ s ∈ a.stages.tail, ∃ f, s = .filter f) ∧
    (∃ p : Pipeline, p.assembly = a ∧
      ∀ o input w, (a.analyze o input).run w = (p.analyze o input, w)) ∧
    (∀ o input w, ((a.analyze o input).run w).1 ≠ .error (.composition .noTokenizer)) ∧
    (∀ o bytes w, (∃ e, ((a.analyze o (.bytes bytes)).run w).1 = .error e) ↔
      ¬ bytes.toByteArray.IsValidUTF8) ∧
    (∀ o input w e, ((a.analyze o input).run w).1 = .error e →
      e.isEncoding = true ∧
        (a.analyze o input).run w = (.error e, w) ∧ (a.tokens o input).run w = (.error e, w)) ∧
    (∀ o s w, ∃ stream, (a.analyze o (.text s)).run w = (.ok stream, w)) ∧
    (∀ o bytes w, bytes.toByteArray.IsValidUTF8 →
      ∃ s stream, bytes.toByteArray = s.toByteArray ∧
        (a.analyze o (.bytes bytes)).run w = (.ok stream, w) ∧
        (a.analyze o (.text s)).run w = (.ok stream, w) ∧
        (a.tokens o (.bytes bytes)).run w = (.ok (stream.drain w).1, (stream.drain w).2.2) ∧
        (a.tokens o (.text s)).run w = (.ok (stream.drain w).1, (stream.drain w).2.2)) := by
  obtain ⟨p, rfl⟩ := (obtained_iff a).mp h
  have herror : ∀ o input w e, ((p.assembly.analyze o input).run w).1 = .error e →
      input.decode = .error e ∧ (p.assembly.analyze o input).run w = (.error e, w) := by
    intro o input w e he
    rw [run_analyze] at he ⊢
    exact ⟨(p.analyze_eq_error_iff o input e).mp he, congrArg (·, w) he⟩
  have hok : ∀ o input w s, input.decode = .ok s →
      (p.assembly.analyze o input).run w = (.ok (p.streamOfText o s), w) := by
    intro o input w s hs
    rw [run_analyze, Pipeline.analyze_eq_ok hs]
  refine ⟨?shape, ⟨p, rfl, run_analyze p⟩, ?tokenizer, ?invalid, ?fails, ?text, ?valid⟩
  case shape =>
    constructor
    · exact ⟨p.tokenizer, rfl⟩
    · simp [Pipeline.assembly, Pipeline.stages]
  case tokenizer =>
    intro o input w he
    have hencoding := Input.isEncoding_of_decode (herror o input w _ he).1
    cases hencoding
  case invalid =>
    intro o bytes w
    rw [← Input.exists_decode_bytes_eq_error_iff, run_analyze]
    simp only [Pipeline.analyze_eq_error_iff]
  case fails =>
    intro o input w e he
    obtain ⟨hdecode, hrun⟩ := herror o input w e he
    exact ⟨Input.isEncoding_of_decode hdecode, hrun, run_tokens_of_error hrun⟩
  case text =>
    intro o s w
    exact ⟨_, hok o (.text s) w s rfl⟩
  case valid =>
    intro o bytes w hvalid
    obtain ⟨s, hs⟩ := (Text.exists_decode_eq_ok_iff bytes).mpr hvalid
    rw [Text.decode_eq_ok_iff] at hs
    have hbytes := hok o (.bytes bytes) w s ((Input.decode_bytes_eq_ok_iff bytes s).mpr hs)
    have htext := hok o (.text s) w s rfl
    exact ⟨s, p.streamOfText o s, hs, hbytes, htext, run_tokens_of_ok hbytes, run_tokens_of_ok htext⟩

/-- A tokenizer and a filter, given a single byte that encodes nothing, and then a text. -/
theorem analysis_fails_only_up_front_lone_byte :
    let chain := (Chain.ofStage (.tokenizer .whole)).andThen (.ofStage (.filter .lowercase))
    let a := (Assembly.mk "pipeline_id" chain.stages).addFilter .strip
    a.Obtained ∧
      (a.tokens {} (.bytes [0x41, 0xE9, 0x41])).run {} = (.error (.encoding ⟨1, some 1⟩), {}) ∧
      ¬ [0x41, 0xE9, 0x41].toByteArray.IsValidUTF8 ∧
      ∃ s, [0x41, 0xC3, 0xA9].toByteArray = s.toByteArray ∧
        (a.tokens {} (.bytes [0x41, 0xC3, 0xA9])).run {} = (a.tokens {} (.text s)).run {} := by
  intro chain a
  have ha : a.Obtained := (Obtained.ofChain (c := chain) rfl).addFilter .strip
  have hfault : ((a.analyze {} (.bytes [0x41, 0xE9, 0x41])).run {}).1 =
      .error (.encoding ⟨1, some 1⟩) := by rfl
  have hvalid : [0x41, 0xC3, 0xA9].toByteArray.IsValidUTF8 :=
    (Text.exists_decode_eq_ok_iff _).mp ⟨"Aé", rfl⟩
  obtain ⟨-, -, -, hinvalid, hfails, -, hreads⟩ := analysis_fails_only_up_front ha
  obtain ⟨s, stream, hs, -, -, hbytes, htext⟩ := hreads {} _ {} hvalid
  exact ⟨ha, (hfails {} _ {} _ hfault).2.2, (hinvalid {} _ {}).mp ⟨_, hfault⟩, s, hs,
    hbytes.trans htext.symm⟩

end Assembly

end TextAnalysis
