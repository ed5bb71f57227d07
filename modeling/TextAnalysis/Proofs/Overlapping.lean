import TextAnalysis.Proofs.KeepingForms
import TextAnalysis.Proofs.Rebuilding

/-!
# Where presets overlap

Three presets put stop words and stems behind the same words in lower case. For a language that has
a stemmer, the preset of the language builds what the stemming preset builds for it; for any other
name it builds what the preset for simple words builds. And as long as word forms are kept, the
stemming preset cannot be told from the standard one.

The builds are followed side by side. They take different steps, so a step that cannot fail may be
passed over on one side (`Build.Alike.skip`); what is left to fail is reading the pattern of words
(`Build.FailsAs`). Main statement: `presets_agree_where_they_overlap`.
-/

set_option autoImplicit false

namespace TextAnalysis

namespace Build

variable {α β γ : Type}

/-! ## Builds that succeed -/

/-- Building succeeds in every workspace. -/
def Succeeds (x : Build α) : Prop := ∀ w, ∃ a, (x.run w).1 = .ok a

namespace Succeeds

/-- Giving a value succeeds, -/
theorem pure (a : α) : Succeeds (Pure.pure a) := fun _ => ⟨a, rfl⟩

/-- reporting does, -/
theorem debug (text : String) : (Build.debug text).Succeeds := fun _ => ⟨(), rfl⟩

/-- making a stem filter does, -/
theorem stemFilter (s : Stemmer) : (Build.stemFilter s).Succeeds := fun _ => ⟨_, rfl⟩

/-- and so do steps that all succeed, -/
theorem bind {x : Build α} {f : α → Build β} (hx : x.Succeeds) (hf : ∀ a, (f a).Succeeds) :
    (x >>= f).Succeeds := by
  intro w
  obtain ⟨a, ha⟩ := hx w
  rw [run_bind]
  rcases hrun : x.run w with ⟨r, w'⟩
  rw [hrun] at ha
  obtain rfl : r = .ok a := ha
  exact hf a w'

/-- with a step that is taken only under a condition as well. -/
theorem onlyIf {c : Prop} [Decidable c] {x : Build Unit} (hx : x.Succeeds) {f : Unit → Build β}
    (hf : (f ()).Succeeds) : (if c then x >>= f else f ()).Succeeds := by
  by_cases hc : c
  · rw [if_pos hc]
    exact bind hx fun _ => hf
  · rw [if_neg hc]
    exact hf

end Succeeds

/-- In every workspace, building fails exactly as `r` does. -/
def FailsAs (x : Build α) (r : Except Failure β) : Prop :=
  ∀ w e, (x.run w).1 = .error e ↔ r = .error e

namespace FailsAs

/-- A result that is given fails as it is. -/
theorem ofExcept (r : Except Failure α) : (Build.ofExcept r).FailsAs r := by
  intro w e
  cases r <;> rfl

/-- Steps that succeed do not change how those before them fail. -/
theorem bind {x : Build α} {f : α → Build β} {r : Except Failure γ} (hx : x.FailsAs r)
    (hf : ∀ a, (f a).Succeeds) : (x >>= f).FailsAs r := by
  intro w e
  rw [← hx w e, run_bind]
  rcases x.run w with ⟨_ | a, w'⟩
  · simp
  · obtain ⟨b, hb⟩ := hf a w'
    simp [hb]

end FailsAs

namespace Alike

variable {R : β → β → Prop}

/-- A step that cannot fail is passed over. -/
theorem skip {x : Build α} {f : α → Build β} {y : Build β} (hx : x.Succeeds)
    (h : ∀ a, (f a).Alike R y) : (x >>= f).Alike R y := by
  intro v w
  obtain ⟨a, ha⟩ := hx v
  rw [run_bind]
  rcases hrun : x.run v with ⟨r, v'⟩
  rw [hrun] at ha
  obtain rfl : r = .ok a := ha
  exact h a v' w

/-- A step that succeeds can be left out where it stands under a condition. -/
theorem skipIf {c : Prop} [Decidable c] {x : Build Unit} {f : Unit → Build β} {y : Build β}
    (hx : x.Succeeds) (h : (f ()).Alike R y) : (if c then x >>= f else f ()).Alike R y := by
  by_cases hc : c
  · rw [if_pos hc]
    exact skip hx fun _ => h
  · rw [if_neg hc]
    exact h

/-- A step whose result is known. -/
theorem known {a : α} {x : Build β} {y : Build α} {g : α → Build β}
    (hy : (Pure.pure a : Build α).Alike Eq y) (h : x.Alike R (g a)) : x.Alike R (y >>= g) := by
  intro v w
  have hresult : SameOutcome Eq (.ok a) (y.run w).1 := hy w w
  rw [run_bind]
  rcases hrun : y.run w with ⟨r, w'⟩
  rw [hrun] at hresult
  cases r with
  | error e => exact hresult.elim
  | ok b =>
    obtain rfl : a = b := hresult
    exact h v w'

end Alike

end Build

open Build (Alike Succeeds FailsAs)

/-! ## The parts of a preset -/

/-- The name makes no difference to the stages of the pipeline for words in lower case. -/
theorem alike_lowercaseWords_renamed (expression : String) (gaps : Bool) (name other : String) :
    (lowercaseWords expression gaps name).Alike
      (fun p q => p.tokenizer = q.tokenizer ∧ p.filters = q.filters)
      (lowercaseWords expression gaps other) := by
  refine .bind (.ofExcept _) fun t u htu => .pure ?_
  subst htu
  exact ⟨rfl, rfl⟩

/-- The pipeline for words in lower case fails where its pattern does. -/
theorem failsAs_lowercaseWords (expression : String) (gaps : Bool) (name : String) :
    (lowercaseWords expression gaps name).FailsAs (Tokenizer.ofPattern expression gaps) :=
  .bind (.ofExcept _) fun _ => .pure _

namespace StopFilter

/-- Stop words depend on the language that a code stands for. -/
theorem ofLanguage?_congr {code other : String}
    (h : Language.ofCode? code = Language.ofCode? other) :
    ofLanguage? code = ofLanguage? other := by
  unfold ofLanguage?
  rw [h]

/-- An unknown code has no stop words. -/
theorem ofLanguage?_of_unknown {code : String} (h : Language.ofCode? code = none) :
    ofLanguage? code = none := by
  unfold ofLanguage?
  rw [h]
  rfl

/-- The words of a language are stopped with the usual limits unless others are asked for. -/
theorem limits_ofLanguage? {code : String} {f : StopFilter} (h : ofLanguage? code = some f) :
    { f with minSize := 2, maxSize := none } = f := by
  simp only [ofLanguage?, Option.bind_eq_bind, Option.pure_def, Option.bind_eq_some_iff,
    Option.some.injEq] at h
  obtain ⟨l, -, words, -, rfl⟩ := h
  rfl

end StopFilter

/-- Selecting the words of a language gives the stop filter of the language. -/
theorem StopSelection.alike_language (code : String) :
    (pure (StopFilter.ofLanguage? code) : Build (Option StopFilter)).Alike Eq
      ((StopSelection.language code).filter? 2 none) := by
  intro v w
  unfold filter?
  dsimp only
  cases h : StopFilter.ofLanguage? code with
  | none => rfl
  | some f => exact congrArg some (StopFilter.limits_ofLanguage? h).symm

namespace StemFilter

/-- A new stem filter caches as many stems as the stemming preset asks for by default. -/
theorem alike_new (s : Stemmer) :
    (Build.stemFilter s).Alike
      (fun f g => f.settings = g.settings ∧ (g.withLimit (some defaultCacheSize)).limit = g.limit)
      (Build.stemFilter s) :=
  fun _ _ => ⟨rfl, rfl⟩

/-- A known code has the stem filter of its language, -/
theorem ofLanguage?_of_known {code : String} {l : Language}
    (h : Language.ofCode? code = some l) :
    ofLanguage? code = do return some (← Build.stemFilter (.ofLanguage l)) := by
  unfold ofLanguage?
  rw [h]

/-- an unknown one has none. -/
theorem ofLanguage?_of_unknown {code : String} (h : Language.ofCode? code = none) :
    ofLanguage? code = pure none := by
  unfold ofLanguage?
  rw [h]

/-- A known code is not replaced by English. -/
theorem ofLanguageOrEnglish_of_known {code : String} {l : Language}
    (h : Language.ofCode? code = some l) :
    ofLanguageOrEnglish code = Build.stemFilter (.ofLanguage l) := by
  simp [ofLanguageOrEnglish, ofLanguage?_of_known h]

/-- The stem filter of a code can always be made, -/
theorem succeeds_ofLanguage? (code : String) : (ofLanguage? code).Succeeds := by
  unfold ofLanguage?
  split
  · exact .bind (.stemFilter _) fun _ => .pure _
  · exact .pure _

/-- and so can the one that falls back to English. -/
theorem succeeds_ofLanguageOrEnglish (code : String) : (ofLanguageOrEnglish code).Succeeds := by
  refine .bind (succeeds_ofLanguage? code) fun f => ?_
  cases f with
  | some f => exact .pure f
  | none => exact .bind (.debug _) fun _ => .stemFilter _

end StemFilter

/-- The stem filter of a stemming preset can always be made. -/
theorem StemmingPreset.succeeds_stemFilter (s : StemmingPreset) : s.stemFilter.Succeeds := by
  unfold stemFilter
  split
  · exact .bind (.stemFilter _) fun _ => .pure _
  · exact .bind (StemFilter.succeeds_ofLanguageOrEnglish _) fun _ => .pure _
  · exact .bind (.stemFilter _) fun _ => .pure _

/-! ## The presets -/

namespace LanguagePreset

/-- Nothing but the pattern of words can be wrong with the preset of a language. -/
theorem failsAs_build (s : LanguagePreset) :
    s.build.FailsAs (Tokenizer.ofPattern s.expression s.gaps) :=
  .bind (failsAs_lowercaseWords _ _ _) fun _ =>
    .onlyIf (.debug _) (.bind (StemFilter.succeeds_ofLanguage? _) fun _ =>
      .onlyIf (.debug _) (.pure _))

/-- For a language the preset builds what the stemming preset builds, however the two name it. -/
theorem alike_stemming (s : LanguagePreset) {l : Language}
    (hl : Language.ofCode? s.language = some l) {code : String}
    (hcode : Language.ofCode? code = some l) :
    s.build.Alike (fun p q => p.same q = true)
      (StemmingPreset.build
        { language := some code, stopWords := .language code, expression := s.expression,
          gaps := s.gaps, ignored := s.ignored }) := by
  have hstop : StopFilter.ofLanguage? s.language = StopFilter.ofLanguage? code :=
    StopFilter.ofLanguage?_congr (hl.trans hcode.symm)
  refine .bind (alike_lowercaseWords_renamed _ _ _ _) fun p q hpq => ?_
  have hsettings : p.settings = q.settings :=
    Pipeline.settings_eq_iff.mpr ⟨hpq.1, by rw [hpq.2]⟩
  refine .skipIf (.debug _) (.known (StopSelection.alike_language code) ?_)
  rw [StemFilter.ofLanguage?_of_known hl]
  simp only [StemmingPreset.stemFilter, StemFilter.ofLanguageOrEnglish_of_known hcode, bind_assoc]
  refine .bind (StemFilter.alike_new _) fun f g hfg => ?_
  simp only [pure_bind]
  refine .skipIf (.debug _) (.pure ?_)
  -- The stop filters are equal, and the stem filters have the same settings.
  have hstem : (f.ignoring s.ignored.toList).settings =
      ((g.ignoring s.ignored.toList).withLimit (some defaultCacheSize)).settings := by
    have hignoring := StemFilter.settings_ignoring hfg.1 s.ignored.toList
    obtain ⟨hstemmer, hignored, hlimit⟩ := StemFilter.settings_eq_iff.mp hignoring
    exact StemFilter.settings_eq_iff.mpr ⟨hstemmer, hignored, hlimit.trans hfg.2.symm⟩
  have hsame : Option.Rel (fun f g => f.settings = g.settings)
      ((StopFilter.ofLanguage? code).map Filter.stop)
      ((StopFilter.ofLanguage? code).map Filter.stop) := by
    cases StopFilter.ofLanguage? code with
    | none => exact .none
    | some f => exact .some rfl
  rw [Pipeline.same_iff, hstop]
  exact Pipeline.settings_addFilter (Pipeline.settings_addFilter? hsettings hsame)
    (congrArg Filter.stem hstem)

/-- For any other name the preset builds what the preset for simple words builds. -/
theorem alike_simple (s : LanguagePreset) (hl : Language.ofCode? s.language = none) :
    s.build.Alike (fun p q => p.same q = true)
      (SimplePreset.build { expression := s.expression, gaps := s.gaps }) := by
  rw [← bind_pure (SimplePreset.build _)]
  refine .bind (alike_lowercaseWords_renamed _ _ _ _) fun p q hpq => ?_
  refine .skipIf (.debug _) ?_
  rw [StemFilter.ofLanguage?_of_unknown hl, pure_bind]
  refine .skipIf (.debug _) (.pure ?_)
  rw [StopFilter.ofLanguage?_of_unknown hl]
  exact Pipeline.same_of_eq hpq.1 hpq.2

end LanguagePreset

/-! ## Stemming with word forms kept -/

/-- Analyses that are both the same as a third one are the same. -/
theorem SameAnalysis.of_common {a b c : Except Failure Stream} (ha : SameAnalysis a c)
    (hb : SameAnalysis b c) : SameAnalysis a b := by
  cases a with
  | error e =>
    cases c with
    | error e'' =>
      cases b with
      | error e' => exact Eq.trans ha (Eq.symm hb)
      | ok t => exact hb.elim
    | ok u => exact ha.elim
  | ok s =>
    cases c with
    | error e'' => exact ha.elim
    | ok u =>
      cases b with
      | error e' => exact hb.elim
      | ok t =>
        intro v w
        have hs := ha v w
        have ht := hb w w
        exact ⟨fun n => (hs.1 n).trans (ht.1 n).symm, hs.2.trans ht.2.symm⟩

namespace Pipeline

/-- While word forms are kept, only the filters count that do not change them. -/
theorem sameAnalysis_of_activeFilters {p q : Pipeline} {o : Options}
    (htokenizer : p.tokenizer = q.tokenizer)
    (hfilters : p.activeFilters { o with keepForms := true } =
      q.activeFilters { o with keepForms := true }) (input : Input) :
    SameAnalysis (p.analyze { o with keepForms := true } input)
      (q.analyze { o with keepForms := true } input) := by
  have hanalyze : p.analyze { o with keepForms := true } input =
      q.analyze { o with keepForms := true } input := by
    simp only [analyze, streamOfText, htokenizer, hfilters]
  have hforms := q.sameAnalysis_withoutMorph o true input
  refine SameAnalysis.of_common ?_ hforms
  rw [hanalyze]
  exact hforms

/-- Where forms are kept, a stem filter at the end is not active. -/
theorem activeFilters_addFilter_stem (p : Pipeline) (f : StemFilter) (o : Options) :
    (p.addFilter (.stem f)).activeFilters { o with keepForms := true } =
      p.activeFilters { o with keepForms := true } := by
  simp [activeFilters, addFilter, Filter.isMorph]

end Pipeline

/-- While word forms are kept, the stemming preset is the standard one with its settings. -/
theorem StemmingPreset.alike_standard (s : StemmingPreset) :
    s.build.Alike
      (fun p q => ∀ (o : Options) (input : Input),
        SameAnalysis (p.analyze { o with keepForms := true } input)
          (q.analyze { o with keepForms := true } input))
      (StandardPreset.build
        { expression := s.expression, gaps := s.gaps, stopWords := s.stopWords,
          minSize := s.minSize, maxSize := s.maxSize }) := by
  refine .bind (alike_lowercaseWords_renamed _ _ _ _) fun p q hpq => ?_
  refine .bind (s.stopWords.alike_filter? _ _) fun stop stop' hstop => ?_
  subst hstop
  refine .skip s.succeeds_stemFilter fun f => .pure ?_
  intro o input
  have htokenizer : ((p.addFilter? (stop.map .stop)).addFilter (.stem f)).tokenizer =
      (q.addFilter? (stop.map .stop)).tokenizer := by
    cases stop <;> exact hpq.1
  refine Pipeline.sameAnalysis_of_activeFilters htokenizer ?_ input
  rw [Pipeline.activeFilters_addFilter_stem, Pipeline.activeFilters, Pipeline.activeFilters,
    Pipeline.filters_addFilter?, Pipeline.filters_addFilter?, hpq.2]

/-- **The presets agree where they overlap.** Take any pattern of words and any words to leave alone.
Where a name is that of a language, the preset for this name builds the pipeline that the stemming
preset builds for it, with the stop words of that language and otherwise the usual settings; both may
use any of the names of the language. Where it is not, it builds the pipeline of the preset for simple
words. Either way the two sides fail together, with one failure, and exactly where the pattern cannot
be read. And whatever the settings of the stemming preset, while word forms are kept it gives the same
tokens as the standard preset with these settings, on every input and in all workspaces. -/
theorem presets_agree_where_they_overlap :
    (∀ (expression : String) (gaps : Bool) (ignored : WordSet) (name : String),
      let preset : LanguagePreset :=
        { language := name, expression := expression, gaps := gaps, ignored := ignored }
      (∀ l, Language.ofCode? name = some l → ∀ code, Language.ofCode? code = some l →
        preset.build.Alike (fun p q => p.same q = true)
          (StemmingPreset.build
            { language := some code, stopWords := .language code, expression := expression,
              gaps := gaps, ignored := ignored })) ∧
      (Language.ofCode? name = none →
        preset.build.Alike (fun p q => p.same q = true)
          (SimplePreset.build { expression := expression, gaps := gaps })) ∧
      ∀ w e, (preset.build.run w).1 = .error e ↔ Tokenizer.ofPattern expression gaps = .error e) ∧
    ∀ s : StemmingPreset,
      s.build.Alike
        (fun p q => ∀ (o : Options) (input : Input),
          SameAnalysis (p.analyze { o with keepForms := true } input)
            (q.analyze { o with keepForms := true } input))
        (StandardPreset.build
          { expression := s.expression, gaps := s.gaps, stopWords := s.stopWords,
            minSize := s.minSize, maxSize := s.maxSize }) := by
  refine ⟨?_, StemmingPreset.alike_standard⟩
  intro expression gaps ignored name preset
  refine ⟨?known, ?unknown, preset.failsAs_build⟩
  case known =>
    intro l hl code hcode
    exact preset.alike_stemming hl hcode
  case unknown =>
    intro hl
    exact preset.alike_simple hl

/-- The pipeline for Brazilian Portuguese, the stemming pipeline for Portuguese, and a language that
is not known. -/
theorem presets_agree_where_they_overlap_portuguese :
    let brazilian : LanguagePreset := { language := "pt-BR", expression := "a" }
    let stemming : StemmingPreset :=
      { language := some "portuguese", stopWords := .language "portuguese", expression := "a" }
    let unknown : LanguagePreset := { language := "xx", expression := "(" }
    Language.ofCode? "pt-BR" = some .portuguese ∧
      Language.ofCode? "portuguese" = some .portuguese ∧
      brazilian.build.Alike (fun p q => p.same q = true) stemming.build ∧
      ((brazilian.build.run {}).1.map fun p => p.stages.map Stage.name) =
        .ok ["regex", "lowercase", "stop", "stem"] ∧
      Language.ofCode? "xx" = none ∧
      unknown.build.Alike (fun p q => p.same q = true) (SimplePreset.build { expression := "(" }) ∧
      (unknown.build.run {}).1 = .error (.stage (.pattern .unclosedGroup)) := by
  intro brazilian stemming unknown
  have hbrazilian : Language.ofCode? "pt-BR" = some .portuguese := by decide
  have hportuguese : Language.ofCode? "portuguese" = some .portuguese := by decide
  have hunknown : Language.ofCode? "xx" = none := by decide
  have hnames :
      (((LanguagePreset.build { language := "pt-BR", expression := "a" }).run {}).1.map
        fun p => p.stages.map Stage.name) = .ok ["regex", "lowercase", "stop", "stem"] := by rfl
  have hpattern : Tokenizer.ofPattern "(" false = .error (.stage (.pattern .unclosedGroup)) := by rfl
  obtain ⟨hlanguage, -⟩ := presets_agree_where_they_overlap
  have hknown := (hlanguage "a" false ∅ "pt-BR").1 .portuguese hbrazilian "portuguese" hportuguese
  have hsimple := (hlanguage "(" false ∅ "xx").2.1 hunknown
  have hfails := ((hlanguage "(" false ∅ "xx").2.2 {} _).mpr hpattern
  exact ⟨hbrazilian, hportuguese, hknown, hnames, hunknown, hsimple, hfails⟩

end TextAnalysis
