import TextAnalysis.Proofs.Interchanging
import TextAnalysis.Proofs.Presets

/-!
# Building twice

What building leaves in the workspace decides which cache the next stem filter gets, and nothing
else. So the same preset built in two workspaces gives same pipelines with the same name, or fails
with the same failure. Two builds are followed side by side through their steps (`Build.Alike`).
Where the next cache is the same too, they give equal pipelines (`Build.OnlyAllocates`).

Main statements: `Preset.alike_build` and `Preset.onlyAllocates_build`.
-/

set_option autoImplicit false

namespace TextAnalysis

/-- Outcomes that are the same up to a relation are the same up to any weaker one. -/
theorem SameOutcome.mono {α : Type} {R S : α → α → Prop} (h : ∀ a b, R a b → S a b)
    {a b : Except Failure α} (hab : SameOutcome R a b) : SameOutcome S a b := by
  cases a <;> cases b
  · exact hab
  · exact hab
  · exact hab
  · exact h _ _ hab

namespace Build

variable {α β : Type} {Q : α → α → Prop} {R : β → β → Prop}

/-- In any two workspaces, the builds fail alike or have results that are related. -/
def Alike (Q : α → α → Prop) (x y : Build α) : Prop :=
  ∀ v w, SameOutcome Q (x.run v).1 (y.run w).1

namespace Alike

/-- Related values are built alike. -/
theorem pure {a b : α} (h : Q a b) : Alike Q (Pure.pure a) (Pure.pure b) := fun _ _ => h

/-- Where the first builds are alike, and related results are gone on with alike, all of it is
alike. -/
theorem bind {x y : Build α} {f g : α → Build β} (hxy : x.Alike Q y)
    (hfg : ∀ a b, Q a b → (f a).Alike R (g b)) : (x >>= f).Alike R (y >>= g) := by
  intro v w
  have h := hxy v w
  revert h
  rw [run_bind, run_bind]
  rcases x.run v with ⟨r, v'⟩
  rcases y.run w with ⟨s, w'⟩
  intro h
  cases r with
  | error e =>
    cases s with
    | error e' => exact h
    | ok b => exact h.elim
  | ok a =>
    cases s with
    | error e' => exact h.elim
    | ok b => exact hfg a b h v' w'

/-- What is built alike up to a relation is so up to any weaker one. -/
theorem mono {S : α → α → Prop} {x y : Build α} (h : x.Alike Q y) (hQS : ∀ a b, Q a b → S a b) :
    x.Alike S y :=
  fun v w => (h v w).mono hQS

/-- A result that is there already is built alike in any two workspaces. -/
theorem ofExcept (r : Except Failure α) : (Build.ofExcept r).Alike Eq (Build.ofExcept r) := by
  intro v w
  cases r <;> rfl

/-- Debug messages are, whatever they say. -/
theorem debug (text : String) {other : String} :
    (Build.debug text).Alike Eq (Build.debug other) :=
  fun _ _ => rfl

/-- A step that is taken under a condition, before what is done in any case. -/
theorem onlyIf {c d : Prop} [Decidable c] [Decidable d] (hcd : c ↔ d) {x y : Build Unit}
    (hxy : x.Alike Eq y) {f g : Unit → Build β} (h : (f ()).Alike R (g ())) :
    (if c then x >>= f else f ()).Alike R (if d then y >>= g else g ()) := by
  by_cases hc : c
  · rw [if_pos hc, if_pos (hcd.mp hc)]
    exact bind hxy fun _ _ _ => h
  · rw [if_neg hc, if_neg fun hd => hc (hcd.mpr hd)]
    exact h

/-- New stem filters with one stemmer differ in their caches only. -/
theorem stemFilter (s : Stemmer) :
    (Build.stemFilter s).Alike (fun f g => f.settings = g.settings) (Build.stemFilter s) :=
  fun _ _ => rfl

end Alike

end Build

open Build (Alike)

/-- The stem filter of a language is built alike up to its cache. -/
theorem StemFilter.alike_ofLanguage? (code : String) :
    (ofLanguage? code).Alike (Option.Rel fun f g => f.settings = g.settings) (ofLanguage? code) := by
  unfold ofLanguage?
  split
  · exact .bind (.stemFilter _) fun f g h => .pure (.some h)
  · exact .pure .none

/-- So it is where English stands in for an unknown language. -/
theorem StemFilter.alike_ofLanguageOrEnglish (code : String) :
    (ofLanguageOrEnglish code).Alike (fun f g => f.settings = g.settings)
      (ofLanguageOrEnglish code) := by
  refine .bind (alike_ofLanguage? code) fun f g h => ?_
  cases h with
  | none => exact .bind (.debug _) fun _ _ _ => .stemFilter _
  | some h => exact .pure h

/-- A stop filter is built alike whatever has been built before. -/
theorem StopSelection.alike_filter? (s : StopSelection) (minSize : Nat) (maxSize : Option Nat) :
    (s.filter? minSize maxSize).Alike Eq (s.filter? minSize maxSize) := by
  cases s with
  | language code =>
    unfold filter?
    dsimp only
    split
    · exact .pure rfl
    · exact .bind (.debug _) fun _ _ _ => .pure rfl
  | _ => exact .pure rfl

namespace Pipeline

variable {p q : Pipeline}

/-- Filters with the same settings make pipelines with the same settings, added to such, -/
theorem settings_addFilter (h : p.settings = q.settings) {f g : Filter}
    (hfg : f.settings = g.settings) : (p.addFilter f).settings = (q.addFilter g).settings := by
  obtain ⟨htokenizer, hfilters⟩ := settings_eq_iff.mp h
  refine settings_eq_iff.mpr ⟨htokenizer, ?_⟩
  simp only [addFilter, List.map_append, List.map_singleton, hfilters, hfg]

/-- also where they may be missing. -/
theorem settings_addFilter? (h : p.settings = q.settings) {f g : Option Filter}
    (hfg : Option.Rel (fun f g => f.settings = g.settings) f g) :
    (p.addFilter? f).settings = (q.addFilter? g).settings := by
  cases hfg with
  | none => exact h
  | some hfg => exact settings_addFilter h hfg

/-- The pipelines have the same stages and the same name. -/
def SameNamed (p q : Pipeline) : Prop := p.settings = q.settings ∧ p.name = q.name

namespace SameNamed

/-- The names of pipelines stay the same when filters are added, -/
theorem addFilter (h : p.SameNamed q) {f g : Filter} (hfg : f.settings = g.settings) :
    (p.addFilter f).SameNamed (q.addFilter g) :=
  ⟨settings_addFilter h.1 hfg, h.2⟩

/-- also where these may be missing. -/
theorem addFilter? (h : p.SameNamed q) {f g : Option Filter}
    (hfg : Option.Rel (fun f g => f.settings = g.settings) f g) :
    (p.addFilter? f).SameNamed (q.addFilter? g) := by
  cases hfg with
  | none => exact h
  | some hfg => exact h.addFilter hfg

end SameNamed

end Pipeline

/-- What every preset but that for keywords starts with is built alike. -/
theorem alike_lowercaseWords (expression : String) (gaps : Bool) (name : String) :
    (lowercaseWords expression gaps name).Alike Eq (lowercaseWords expression gaps name) :=
  .bind (.ofExcept _) fun _ _ h => .pure (by rw [h])

/-- So is the pipeline of the keyword preset, -/
theorem KeywordPreset.alike_build (s : KeywordPreset) : s.build.Alike Eq s.build :=
  .bind (.ofExcept _) fun t u h => by
    subst h
    exact .bind (.ofExcept _) fun _ _ h => .pure (by rw [h])

/-- and that of the standard preset. -/
theorem StandardPreset.alike_build (s : StandardPreset) : s.build.Alike Eq s.build :=
  .bind (alike_lowercaseWords _ _ _) fun _ _ hp =>
    .bind (s.stopWords.alike_filter? _ _) fun _ _ hstop => .pure (by rw [hp, hstop])

/-- Ignored words are a setting, which is made the same way from the same settings. -/
theorem StemFilter.settings_ignoring {f g : StemFilter} (h : f.settings = g.settings)
    (words : List String) : (f.ignoring words).settings = (g.ignoring words).settings := by
  obtain ⟨hstemmer, hignored, hlimit⟩ := settings_eq_iff.mp h
  refine settings_eq_iff.mpr ⟨hstemmer, ?_, hlimit⟩
  simp only [ignoring, hignored]

/-- So is the limit of the cache. -/
theorem StemFilter.settings_withLimit {f g : StemFilter} (h : f.settings = g.settings)
    (limit : Option Nat) : (f.withLimit limit).settings = (g.withLimit limit).settings := by
  obtain ⟨hstemmer, hignored, -⟩ := settings_eq_iff.mp h
  exact settings_eq_iff.mpr ⟨hstemmer, hignored, rfl⟩

/-- The stem filter of the stemming preset is built alike up to its cache, -/
theorem StemmingPreset.alike_stemFilter (s : StemmingPreset) :
    s.stemFilter.Alike (fun f g => f.settings = g.settings) s.stemFilter := by
  have hadjust (f g : StemFilter) (h : f.settings = g.settings) :
      Alike (fun f g : StemFilter => f.settings = g.settings)
        (pure ((f.ignoring s.ignored.toList).withLimit s.cacheSize))
        (pure ((g.ignoring s.ignored.toList).withLimit s.cacheSize)) :=
    .pure (StemFilter.settings_withLimit (StemFilter.settings_ignoring h _) _)
  unfold stemFilter
  split
  · exact .bind (.stemFilter _) hadjust
  · exact .bind (StemFilter.alike_ofLanguageOrEnglish _) hadjust
  · exact .bind (.stemFilter _) hadjust

/-- and so is the pipeline of this preset, -/
theorem StemmingPreset.alike_build (s : StemmingPreset) :
    s.build.Alike Pipeline.SameNamed s.build := by
  refine .bind (alike_lowercaseWords _ _ _) fun p q hp =>
    .bind (s.stopWords.alike_filter? _ _) fun a b hstop =>
      .bind s.alike_stemFilter fun f g hstem => .pure ?_
  subst hp hstop
  exact Pipeline.SameNamed.addFilter ⟨rfl, rfl⟩ (congrArg Filter.stem hstem)

/-- and that of the language preset. -/
theorem LanguagePreset.alike_build (s : LanguagePreset) :
    s.build.Alike Pipeline.SameNamed s.build := by
  refine .bind (alike_lowercaseWords _ _ _) fun p q hp => ?_
  subst hp
  refine .onlyIf Iff.rfl (.debug _)
    (.bind (StemFilter.alike_ofLanguage? _) fun f g hstem => ?_)
  have hnone : f.isNone = g.isNone := by cases hstem <;> rfl
  refine .onlyIf (by rw [hnone]) (.debug _) (.pure ?_)
  refine Pipeline.SameNamed.addFilter? ⟨rfl, rfl⟩ ?_
  cases hstem with
  | none => exact .none
  | some hstem =>
    have hignored := StemFilter.settings_ignoring hstem s.ignored.toList
    exact .some (congrArg Filter.stem hignored)

/-- Building a preset gives same pipelines with the same name in all workspaces, or the same
failure. -/
theorem Preset.alike_build (preset : Preset) : preset.build.Alike Pipeline.SameNamed preset.build := by
  have hrefl (p q : Pipeline) (h : p = q) : p.SameNamed q := by
    subst h
    exact ⟨rfl, rfl⟩
  cases preset with
  | keyword s => exact s.alike_build.mono hrefl
  | simple s => exact (alike_lowercaseWords _ _ _).mono hrefl
  | standard s => exact s.alike_build.mono hrefl
  | stemming s => exact s.alike_build
  | language s => exact s.alike_build

/-! ## What building does to a workspace -/

namespace Build

variable {α β : Type}

/-- Building looks at nothing in the workspace but which cache is the next, and changes nothing but
that and the journal. -/
structure OnlyAllocates (x : Build α) : Prop where
  congr : ∀ v w, v.nextCache = w.nextCache →
    (x.run v).1 = (x.run w).1 ∧ (x.run v).2.nextCache = (x.run w).2.nextCache
  keeps : ∀ w, (x.run w).2.stemmers = w.stemmers ∧ (x.run w).2.caches = w.caches

namespace OnlyAllocates

/-- Nothing is needed for a value that is there already. -/
theorem pure (a : α) : OnlyAllocates (Pure.pure a) where
  congr _ _ h := ⟨rfl, h⟩
  keeps _ := ⟨rfl, rfl⟩

/-- A debug message needs nothing, -/
theorem debug (text : String) : (Build.debug text).OnlyAllocates where
  congr _ _ h := ⟨rfl, h⟩
  keeps _ := ⟨rfl, rfl⟩

/-- and neither does a result that is there already. -/
theorem ofExcept (r : Except Failure α) : (Build.ofExcept r).OnlyAllocates where
  congr _ _ h := by cases r <;> exact ⟨rfl, h⟩
  keeps _ := by cases r <;> exact ⟨rfl, rfl⟩

/-- A stem filter takes the next cache, and nothing else. -/
theorem stemFilter (s : Stemmer) : (Build.stemFilter s).OnlyAllocates where
  congr v w h := by
    have hfilter : (v.stemFilter s).1 = (w.stemFilter s).1 := by
      simp only [Workspace.stemFilter, h]
    exact ⟨congrArg Except.ok hfilter, congrArg (· + 1) h⟩
  keeps _ := ⟨rfl, rfl⟩

/-- Builds that only allocate do so one after the other, -/
theorem bind {x : Build α} {f : α → Build β} (hx : x.OnlyAllocates)
    (hf : ∀ a, (f a).OnlyAllocates) : (x >>= f).OnlyAllocates where
  congr v w h := by
    obtain ⟨hresult, hnext⟩ := hx.congr v w h
    rw [run_bind, run_bind]
    rcases hv : x.run v with ⟨r, v'⟩
    rcases hw : x.run w with ⟨r', w'⟩
    rw [hv, hw] at hresult hnext
    obtain rfl : r = r' := hresult
    cases r with
    | error e => exact ⟨rfl, hnext⟩
    | ok a => exact (hf a).congr v' w' hnext
  keeps w := by
    have hkeeps := hx.keeps w
    rw [run_bind]
    rcases hw : x.run w with ⟨r, w'⟩
    rw [hw] at hkeeps
    cases r with
    | error e => exact hkeeps
    | ok a =>
      obtain ⟨hstemmers, hcaches⟩ := (hf a).keeps w'
      exact ⟨hstemmers.trans hkeeps.1, hcaches.trans hkeeps.2⟩

/-- and where the first is left out under a condition. -/
theorem onlyIf {c : Prop} [Decidable c] {x : Build Unit} (hx : x.OnlyAllocates)
    {f : Unit → Build β} (hf : (f ()).OnlyAllocates) :
    (if c then x >>= f else f ()).OnlyAllocates := by
  by_cases hc : c
  · rw [if_pos hc]
    exact bind hx fun _ => hf
  · rw [if_neg hc]
    exact hf

end OnlyAllocates

end Build

end TextAnalysis
