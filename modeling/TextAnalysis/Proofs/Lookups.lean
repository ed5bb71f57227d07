import TextAnalysis.Proofs.Caching

/-!
# Workspaces that give the same stems

Two analyses of one text see different workspaces: other stems are cached and other reports have
been made. What matters to their tokens is that the workspaces give the same stems, now and after
any number of lookups. This is `Workspace.StemsAlike`: some relation holds of the workspaces that
lookups keep and reports do not break.

A workspace is alike to itself, whatever its caches hold (`StemsAlike.refl`), and sound workspaces
with the same stemming functions are alike, whatever has been looked up in each of them
(`StemsAlike.of_sound`).
-/

set_option autoImplicit false

namespace TextAnalysis.Workspace

variable {filters : List StemFilter} {v w : Workspace}

/-- A relation between workspaces that give the same stems, kept by looking them up on both sides
and by reporting on either. -/
structure StemBisimulation (filters : List StemFilter) (R : Workspace → Workspace → Prop) :
    Prop where
  stem_fst : ∀ {v w}, R v w → ∀ f ∈ filters, ∀ word, (v.stem f word).1 = (w.stem f word).1
  stem_snd : ∀ {v w}, R v w → ∀ f ∈ filters, ∀ word, R (v.stem f word).2 (w.stem f word).2
  report_left : ∀ {v w}, R v w → ∀ e, R (v.report e) w
  report_right : ∀ {v w}, R v w → ∀ e, R v (w.report e)

/-- The stem filters cannot tell the workspaces apart. -/
def StemsAlike (filters : List StemFilter) (v w : Workspace) : Prop :=
  ∃ R, StemBisimulation filters R ∧ R v w

/-- Looking up a stem depends on the stemming functions and the caches only. -/
theorem stem_congr (hstemmers : v.stemmers = w.stemmers) (hcaches : v.caches = w.caches)
    (f : StemFilter) (word : String) :
    (v.stem f word).1 = (w.stem f word).1 ∧
      (v.stem f word).2.stemmers = (w.stem f word).2.stemmers ∧
      (v.stem f word).2.caches = (w.stem f word).2.caches := by
  have hcache : v.cache f.cache = w.cache f.cache := by rw [cache, cache, hcaches]
  unfold stem
  rw [hcache, computeStem_congr hstemmers]
  split
  · exact ⟨rfl, hstemmers, hcaches⟩
  · split
    · exact ⟨rfl, hstemmers, hcaches⟩
    · exact ⟨rfl, hstemmers, by simp only [setCache, hcaches]⟩

namespace StemsAlike

/-- Workspaces whose caches stem alike stay so. -/
theorem bisimulation (filters : List StemFilter) :
    StemBisimulation filters (StemsAlike filters) where
  stem_fst := by
    rintro v w ⟨R, hR, hvw⟩
    exact hR.stem_fst hvw
  stem_snd := by
    rintro v w ⟨R, hR, hvw⟩ f hf word
    exact ⟨R, hR, hR.stem_snd hvw f hf word⟩
  report_left := by
    rintro v w ⟨R, hR, hvw⟩ e
    exact ⟨R, hR, hR.report_left hvw e⟩
  report_right := by
    rintro v w ⟨R, hR, hvw⟩ e
    exact ⟨R, hR, hR.report_right hvw e⟩

/-- Workspaces with the same stemming functions and caches give the same stems. -/
theorem of_eq (filters : List StemFilter) (hstemmers : v.stemmers = w.stemmers)
    (hcaches : v.caches = w.caches) : StemsAlike filters v w := by
  refine ⟨fun v w => v.stemmers = w.stemmers ∧ v.caches = w.caches, ⟨?_, ?_, ?_, ?_⟩,
    hstemmers, hcaches⟩
  · rintro v w ⟨hstemmers, hcaches⟩ f - word
    exact (stem_congr hstemmers hcaches f word).1
  · rintro v w ⟨hstemmers, hcaches⟩ f - word
    exact (stem_congr hstemmers hcaches f word).2
  · rintro v w h e
    exact h
  · rintro v w h e
    exact h

/-- A workspace gives the stems that it gives, also where its caches hold other words than stems. -/
theorem refl (filters : List StemFilter) (w : Workspace) : StemsAlike filters w w :=
  of_eq filters rfl rfl

/-- Sound workspaces with the same stemming functions give the same stems, whatever each of them has
cached. -/
theorem of_sound {stemmers : List (String → String)} {owned owned' : List StemFilter}
    (hv : v.Sound stemmers owned) (hw : w.Sound stemmers owned') (howned : filters ⊆ owned)
    (howned' : filters ⊆ owned') : StemsAlike filters v w := by
  refine ⟨fun v w => v.Sound stemmers owned ∧ w.Sound stemmers owned', ⟨?_, ?_, ?_, ?_⟩, hv, hw⟩
  · rintro v w ⟨hv, hw⟩ f hf word
    rw [hv.stem_fst (howned hf), hw.stem_fst (howned' hf),
      computeStem_congr (hv.stemmers_eq.trans hw.stemmers_eq.symm)]
  · rintro v w ⟨hv, hw⟩ f hf word
    exact ⟨hv.stem_snd (howned hf) word, hw.stem_snd (howned' hf) word⟩
  · rintro v w ⟨hv, hw⟩ e
    exact ⟨hv.report e, hw⟩
  · rintro v w ⟨hv, hw⟩ e
    exact ⟨hv, hw.report e⟩

end StemsAlike

end TextAnalysis.Workspace
