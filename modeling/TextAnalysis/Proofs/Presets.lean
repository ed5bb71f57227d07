import TextAnalysis.Preset
import TextAnalysis.Proofs.Stopping

/-!
# The stop filters of presets

Whatever the settings of a preset, its pipeline has at most one stop filter, and tokens of any mode
pass at most one. What a preset builds is followed through its steps by `Build.Yields`, a property
of the result where building succeeds.
-/

set_option autoImplicit false

namespace TextAnalysis

/-! ## What building yields -/

/-- A computation that may fail goes on where its first step succeeds, in the state that this step
leaves. -/
theorem run_bind_stateM {ε σ α β : Type} (x : ExceptT ε (StateM σ) α)
    (f : α → ExceptT ε (StateM σ) β) (s : σ) :
    (x >>= f).run s =
      match x.run s with
      | (.ok a, s') => (f a).run s'
      | (.error e, s') => (.error e, s') := by
  have hstate : ∀ (y : StateM σ (Except ε α)) (g : Except ε α → StateM σ (Except ε β)),
      (y >>= g) s = (match y s with | (r, s') => g r s' : Except ε β × σ) :=
    fun _ _ => rfl
  rw [ExceptT.run_bind, hstate]
  rcases x.run s with ⟨r, s'⟩
  cases r <;> rfl

namespace Build

variable {α β : Type}

/-- Where building succeeds, its result has the property. -/
def Yields (b : Build α) (P : α → Prop) : Prop := ∀ w a, (b.run w).1 = .ok a → P a

/-- Steps run one after the other, up to the first that fails. -/
theorem run_bind (x : Build α) (f : α → Build β) (w : Workspace) :
    (x >>= f).run w =
      match x.run w with
      | (.ok a, w') => (f a).run w'
      | (.error e, w') => (.error e, w') := by
  rw [run_bind_stateM]
  rcases x.run w with ⟨r, w'⟩
  cases r <;> rfl

namespace Yields

/-- A value that is given is yielded. -/
theorem pure {a : α} {P : α → Prop} (h : P a) : Yields (Pure.pure a) P := by
  intro w b hb
  obtain rfl := Except.ok.inj hb
  exact h

/-- What a build yields, those behind it may rely on. -/
theorem bind {x : Build α} {f : α → Build β} {Q : α → Prop} {P : β → Prop} (hx : x.Yields Q)
    (hf : ∀ a, Q a → (f a).Yields P) : (x >>= f).Yields P := by
  intro w b hb
  rw [run_bind] at hb
  split at hb
  · next a w' hrun => exact hf a (hx w a (by rw [hrun])) w' b hb
  · cases hb

/-- Where only the last step matters. -/
theorem after {x : Build α} {f : α → Build β} {P : β → Prop} (hf : ∀ a, (f a).Yields P) :
    (x >>= f).Yields P :=
  bind (Q := fun _ => True) (fun _ _ _ => trivial) fun a _ => hf a

/-- A step that is taken under a condition, before what is done in any case. -/
theorem onlyIf {c : Prop} [Decidable c] {x : Build Unit} {f : Unit → Build β} {P : β → Prop}
    (h : (f ()).Yields P) : (if c then x >>= f else f ()).Yields P := by
  split
  · exact after fun _ => h
  · exact h

/-- A result that is given yields its value. -/
theorem ofExcept {r : Except Failure α} {P : α → Prop} (h : ∀ a, r = .ok a → P a) :
    (Build.ofExcept r).Yields P := by
  intro w a ha
  cases r with
  | ok b => exact h a ha
  | error e => cases ha

end Yields

end Build

/-! ## Presets -/

/-- The pipeline for words in lower case has one filter. -/
theorem lowercaseWords_yields (expression : String) (gaps : Bool) (name : String) :
    (lowercaseWords expression gaps name).Yields fun p => p.filters = [.lowercase] :=
  .after fun _ => .pure rfl

/-- A filter that may be missing is added where it is there. -/
theorem Pipeline.filters_addFilter? (p : Pipeline) (f : Option Filter) :
    (p.addFilter? f).filters = p.filters ++ f.toList := by
  cases f with
  | none => exact (List.append_nil _).symm
  | some f => rfl

/-- The stop filter of a preset, where it has one, is the only one that tokens pass. -/
theorem Pipeline.length_stopFilters_le_one {p : Pipeline} (stop : Option StopFilter)
    (stem : List StemFilter)
    (h : p.filters = .lowercase :: ((stop.map Filter.stop).toList ++ stem.map Filter.stem))
    (mode : String) : (p.stopFilters mode).length ≤ 1 := by
  have hstem : (stem.map Filter.stem).flatMap (Filter.stopFilters mode) = [] := by
    rw [List.flatMap_eq_nil_iff]
    intro f hf
    obtain ⟨g, -, rfl⟩ := List.mem_map.mp hf
    rfl
  rw [stopFilters, h, List.flatMap_cons, List.flatMap_append, hstem]
  cases stop with
  | none => exact Nat.zero_le 1
  | some f => exact Nat.le_refl 1

/-- The keyword preset has no stop filter. -/
theorem KeywordPreset.build_yields (s : KeywordPreset) :
    s.build.Yields fun p => ∀ mode, p.stopFilters mode = [] := by
  refine .after fun t => .bind (.ofExcept (P := fun p => ∀ mode, p.stopFilters mode = []) ?_)
    fun p hp => .pure hp
  intro p hp mode
  cases hcommas : s.commas <;> cases hlowercase : s.lowercase <;>
    · rw [hcommas, hlowercase] at hp
      obtain rfl := Except.ok.inj hp
      rfl

/-- The standard preset has at most one, -/
theorem StandardPreset.build_yields (s : StandardPreset) :
    s.build.Yields fun p => ∀ mode, (p.stopFilters mode).length ≤ 1 := by
  refine .bind (lowercaseWords_yields _ _ _) fun p hp => .after fun stop => .pure fun mode => ?_
  refine Pipeline.length_stopFilters_le_one stop [] ?_ mode
  rw [Pipeline.filters_addFilter?, hp]
  exact congrArg (List.cons _) (List.append_nil _).symm

/-- and so have the stemming preset -/
theorem StemmingPreset.build_yields (s : StemmingPreset) :
    s.build.Yields fun p => ∀ mode, (p.stopFilters mode).length ≤ 1 := by
  refine .bind (lowercaseWords_yields _ _ _) fun p hp => .after fun stop => .after fun stem =>
    .pure fun mode => ?_
  refine Pipeline.length_stopFilters_le_one stop [stem] ?_ mode
  rw [Pipeline.addFilter, Pipeline.filters_addFilter?, hp]
  rfl

/-- and the preset for a language. -/
theorem LanguagePreset.build_yields (s : LanguagePreset) :
    s.build.Yields fun p => ∀ mode, (p.stopFilters mode).length ≤ 1 := by
  refine .bind (lowercaseWords_yields _ _ _) fun p hp => .onlyIf (.after fun stem => .onlyIf
    (.pure fun mode => ?_))
  refine Pipeline.length_stopFilters_le_one (StopFilter.ofLanguage? s.language)
    (stem.map fun f => f.ignoring s.ignored.toList).toList ?_ mode
  rw [Pipeline.filters_addFilter?, Pipeline.filters_addFilter?, hp]
  cases stem <;> rfl

/-- Tokens of any mode pass at most one stop filter in the pipeline of a preset. -/
theorem Preset.build_yields (preset : Preset) :
    preset.build.Yields fun p => ∀ mode, (p.stopFilters mode).length ≤ 1 := by
  cases preset with
  | keyword s =>
    intro w p hp mode
    rw [s.build_yields w p hp mode]
    exact Nat.zero_le 1
  | simple s =>
    intro w p hp mode
    exact p.length_stopFilters_le_one none [] (lowercaseWords_yields _ _ _ w p hp) mode
  | standard s => exact s.build_yields
  | stemming s => exact s.build_yields
  | language s => exact s.build_yields

end TextAnalysis
