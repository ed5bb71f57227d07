import Mathlib.Data.List.Perm.Subperm
import Mathlib.Data.String.Basic
import TextAnalysis.Pipeline

/-!
# Sameness of stages

Stages and pipelines are compared by their settings: `Filter.same` and `Dispatch.same` follow the
nesting of dispatching filters, and `Pipeline.same` leaves the names of pipelines out. Taking from a
stage what is not compared, the identities of its caches and the names of stemming functions, leaves
its settings; stages are the same exactly where their settings are equal (`Stage.same_iff`,
`Pipeline.same_iff`). So sameness is reflexive, symmetric and transitive, whatever is nested in the
stages.

Dispatching filters keep their modes in order. Then comparing them entry by entry is the same as
looking the modes of one up in the other (`Dispatch.same_iff_lookup`).
-/

set_option autoImplicit false

namespace TextAnalysis

/-! ## Settings -/

/-- A stemming function is known by its identity, and its name follows from that. -/
def Stemmer.settings : Stemmer → Stemmer
  | ofLanguage l => ofLanguage l
  | custom _ identity => custom "" identity

/-- What a stem filter is, without its cache and the name of its stemmer. -/
def StemFilter.settings (f : StemFilter) : StemFilter :=
  { f with stemmer := f.stemmer.settings, cache := 0 }

mutual

/-- The filter without what is not compared. -/
def Filter.settings : Filter → Filter
  | .dispatch d => .dispatch d.settings
  | .stem f => .stem f.settings
  | f => f

/-- What a dispatching filter is, without names and caches. -/
def Dispatch.settings : Dispatch → Dispatch
  | .otherwise f => .otherwise f.settings
  | .mode m f rest => .mode m f.settings rest.settings

end

/-- What a stage is, without names and caches. -/
def Stage.settings : Stage → Stage
  | tokenizer t => tokenizer t
  | filter f => filter f.settings

/-- The pipeline without what is not compared. -/
def Pipeline.settings (p : Pipeline) : Pipeline := ⟨"", p.tokenizer, p.filters.map Filter.settings⟩

/-- Stemmers are the same exactly if their settings are equal. -/
theorem Stemmer.same_iff (s t : Stemmer) : s.same t = true ↔ s.settings = t.settings := by
  cases s <;> cases t <;> simp [same, settings]

/-- The settings of a stem filter are its stemmer, the words it ignores and its limit. -/
theorem StemFilter.settings_eq_iff {f g : StemFilter} :
    f.settings = g.settings ↔
      f.stemmer.settings = g.stemmer.settings ∧ f.ignored = g.ignored ∧ f.limit = g.limit := by
  simp [settings]

/-- Stem filters are the same exactly if their settings are equal, -/
theorem StemFilter.same_iff (f g : StemFilter) : f.same g = true ↔ f.settings = g.settings := by
  simp [same, settings_eq_iff, Stemmer.same_iff, and_assoc]

mutual

/-- and so are filters, -/
theorem Filter.same_iff : ∀ f g : Filter, f.same g = true ↔ f.settings = g.settings
  | .pass, g | .lowercase, g | .strip, g => by
    cases g <;> simp [Filter.same, Filter.settings]
  | .charset m, g | .stop m, g | .report m, g => by
    cases g <;> simp [Filter.same, Filter.settings]
  | .stem f, g => by
    cases g with
    | stem g => simp [Filter.same, Filter.settings, f.same_iff g]
    | _ => simp [Filter.same, Filter.settings]
  | .dispatch d, g => by
    cases g with
    | dispatch e => simp [Filter.same, Filter.settings, d.same_iff e]
    | _ => simp [Filter.same, Filter.settings]

/-- and dispatching filters. -/
theorem Dispatch.same_iff : ∀ d e : Dispatch, d.same e = true ↔ d.settings = e.settings
  | .otherwise f, e => by
    cases e with
    | otherwise g => simp [Dispatch.same, Dispatch.settings, f.same_iff g]
    | mode n g e => simp [Dispatch.same, Dispatch.settings]
  | .mode m f d, e => by
    cases e with
    | otherwise g => simp [Dispatch.same, Dispatch.settings]
    | mode n g e =>
      simp [Dispatch.same, Dispatch.settings, f.same_iff g, d.same_iff e, and_assoc]

end

/-- So are stages. -/
theorem Stage.same_iff (s t : Stage) : s.same t = true ↔ s.settings = t.settings := by
  cases s <;> cases t <;> simp [same, settings, Filter.same_iff]

/-- Lists of filters are compared pair by pair, once they are known to be equally long. -/
theorem Filter.all_same_iff (fs gs : List Filter) :
    (fs.length = gs.length ∧ (fs.zip gs).all (fun pair => pair.1.same pair.2) = true) ↔
      fs.map settings = gs.map settings := by
  induction fs generalizing gs with
  | nil => cases gs <;> simp
  | cons f fs ih =>
    cases gs with
    | nil => simp
    | cons g gs =>
      rw [List.map_cons, List.map_cons, List.cons.injEq, ← ih, ← f.same_iff]
      simp only [List.length_cons, Nat.add_right_cancel_iff, List.zip_cons_cons, List.all_cons,
        Bool.and_eq_true, and_left_comm]

/-- The settings of a pipeline are its tokenizer and the settings of its filters. -/
theorem Pipeline.settings_eq_iff {p q : Pipeline} :
    p.settings = q.settings ↔
      p.tokenizer = q.tokenizer ∧ p.filters.map Filter.settings = q.filters.map Filter.settings := by
  simp only [settings, Pipeline.mk.injEq, true_and]

/-- Pipelines are the same exactly if their settings are equal. -/
theorem Pipeline.same_iff (p q : Pipeline) : p.same q = true ↔ p.settings = q.settings := by
  simp only [same, Bool.and_eq_true, beq_iff_eq, settings_eq_iff, ← Filter.all_same_iff, and_assoc]

/-- Pipelines with the same tokenizer and the same filters are the same, whatever their names. -/
theorem Pipeline.same_of_eq {p q : Pipeline} (ht : p.tokenizer = q.tokenizer)
    (hf : p.filters = q.filters) : p.same q = true := by
  rw [same_iff, settings, settings, ht, hf]

/-- Sameness of stages is an equivalence, -/
theorem Stage.same_equivalence : Equivalence fun s t : Stage => s.same t = true := by
  simp only [same_iff]
  exact eq_equivalence.comap settings

/-- and so is that of pipelines. -/
theorem Pipeline.same_equivalence : Equivalence fun p q : Pipeline => p.same q = true := by
  simp only [same_iff]
  exact eq_equivalence.comap settings

/-! ## Caches are not compared -/

/-- A stem filter with another cache. -/
def StemFilter.recached (σ : Nat → Nat) (f : StemFilter) : StemFilter :=
  { f with cache := σ f.cache }

mutual

/-- The filter with other caches. -/
def Filter.recached (σ : Nat → Nat) : Filter → Filter
  | .dispatch d => .dispatch (d.recached σ)
  | .stem f => .stem (f.recached σ)
  | f => f

/-- A dispatching filter with other caches. -/
def Dispatch.recached (σ : Nat → Nat) : Dispatch → Dispatch
  | .otherwise f => .otherwise (f.recached σ)
  | .mode m f rest => .mode m (f.recached σ) (rest.recached σ)

end

/-- The pipeline with other caches. -/
def Pipeline.recached (σ : Nat → Nat) (p : Pipeline) : Pipeline :=
  { p with filters := p.filters.map (Filter.recached σ) }

mutual

/-- Other caches do not change the settings of a filter, -/
theorem Filter.settings_recached (σ : Nat → Nat) : ∀ f : Filter, (f.recached σ).settings = f.settings
  | .dispatch d => by rw [Filter.recached, Filter.settings, d.settings_recached σ, Filter.settings]
  | .stem _ => rfl
  | .pass | .lowercase | .strip => rfl
  | .charset _ | .stop _ | .report _ => rfl

/-- nor those of a dispatching filter, -/
theorem Dispatch.settings_recached (σ : Nat → Nat) :
    ∀ d : Dispatch, (d.recached σ).settings = d.settings
  | .otherwise f => by
    rw [Dispatch.recached, Dispatch.settings, f.settings_recached σ, Dispatch.settings]
  | .mode m f rest => by
    rw [Dispatch.recached, Dispatch.settings, f.settings_recached σ, rest.settings_recached σ,
      Dispatch.settings]

end

/-- nor those of a pipeline. -/
theorem Pipeline.settings_recached (σ : Nat → Nat) (p : Pipeline) :
    (p.recached σ).settings = p.settings := by
  have hfilters : Filter.settings ∘ Filter.recached σ = Filter.settings :=
    funext (Filter.settings_recached σ)
  rw [settings, recached, List.map_map, hfilters, settings]

/-! ## Modes in order -/

namespace Dispatch

/-- The modes are in order, each once. -/
def Ordered (d : Dispatch) : Prop := d.entries.Pairwise fun a b => a.1 < b.1

/-- A fallback alone is in order. -/
theorem ordered_otherwise (f : Filter) : (otherwise f).Ordered := .nil

/-- Inserting a filter for a mode adds no entries for other modes. -/
theorem mem_entries_insert {m : String} {f : Filter} {e : String × Filter} :
    ∀ {d : Dispatch}, e ∈ (d.insert m f).entries → e.1 = m ∨ e ∈ d.entries
  | .otherwise g, h => by
    simp only [insert, entries, List.mem_singleton] at h
    exact .inl (by rw [h])
  | .mode n g rest, h => by
    rw [insert] at h
    split at h
    · rcases List.mem_cons.mp h with rfl | h
      · exact .inl rfl
      · exact .inr (List.mem_cons_of_mem _ h)
    · split at h
      · rcases List.mem_cons.mp h with rfl | h
        · exact .inl rfl
        · exact .inr h
      · rcases List.mem_cons.mp h with rfl | h
        · exact .inr List.mem_cons_self
        · exact (mem_entries_insert h).imp_right (List.mem_cons_of_mem _)

/-- Setting the filter for a mode keeps the modes in order. -/
theorem ordered_insert (m : String) (f : Filter) :
    ∀ {d : Dispatch}, d.Ordered → (d.insert m f).Ordered
  | .otherwise g, _ => List.pairwise_singleton _ _
  | .mode n g rest, h => by
    obtain ⟨hfirst, hrest⟩ := List.pairwise_cons.mp h
    rw [insert]
    split
    · next heq => exact List.pairwise_cons.mpr ⟨fun e he => heq ▸ hfirst e he, hrest⟩
    · next hne =>
      split
      · next hlt =>
        refine List.pairwise_cons.mpr ⟨fun e he => ?_, h⟩
        rcases List.mem_cons.mp he with rfl | he
        · exact hlt
        · exact String.lt_trans hlt (hfirst e he)
      · next hge =>
        have hlt : n < m := lt_of_le_of_ne (not_lt.mp hge) hne
        refine List.pairwise_cons.mpr ⟨fun e he => ?_, ordered_insert m f hrest⟩
        rcases mem_entries_insert he with heq | he
        · exact heq ▸ hlt
        · exact hfirst e he

/-- The entries of the settings are those of the filter, with their settings, -/
theorem entries_settings :
    ∀ d : Dispatch, d.settings.entries = d.entries.map fun e => (e.1, e.2.settings)
  | .otherwise _ => rfl
  | .mode m f rest => by rw [settings, entries, entries, entries_settings rest, List.map_cons]

/-- and the fallback is its fallback. -/
theorem fallback_settings : ∀ d : Dispatch, d.settings.fallback = d.fallback.settings
  | .otherwise _ => rfl
  | .mode m f rest => by rw [settings, fallback, fallback, fallback_settings rest]

/-- The settings of filters that are in order are in order. -/
theorem Ordered.settings {d : Dispatch} (h : d.Ordered) : d.settings.Ordered := by
  rw [Ordered, entries_settings]
  exact List.pairwise_map.mpr h

/-- A dispatching filter has no other parts than its entries and the filter for all other modes. -/
theorem ext_entries : ∀ {d e : Dispatch}, d.entries = e.entries → d.fallback = e.fallback → d = e
  | .otherwise f, .otherwise g, _, h => congrArg otherwise h
  | .mode m f d, .mode n g e, hentries, hfallback => by
    obtain ⟨hentry, hrest⟩ := List.cons.inj hentries
    obtain ⟨rfl, rfl⟩ := Prod.mk.inj hentry
    rw [ext_entries hrest hfallback]

/-- Ordered entries are the same list where one list has all of the other and is not longer. -/
theorem Ordered.entries_eq {d e : Dispatch} (hd : d.Ordered) (he : e.Ordered)
    (hsubset : d.entries ⊆ e.entries) (hlength : d.entries.length = e.entries.length) :
    d.entries = e.entries := by
  have hnodup : d.entries.Nodup := by
    refine List.Pairwise.imp ?_ hd
    rintro a b hlt rfl
    exact String.lt_irrefl a.1 hlt
  have hperm : d.entries.Perm e.entries :=
    (List.subperm_of_subset hnodup hsubset).perm_of_length_le hlength.ge
  refine hperm.eq_of_pairwise ?_ hd he
  intro a b _ _ hab hba
  exact absurd (String.lt_trans hab hba) (String.lt_irrefl a.1)

/-- Dispatching filters are the same where their filters for all other modes are, they have equally
many modes, and every mode of the first has the same filter in the second. Looking the modes of the
second up in the first is not needed. -/
theorem same_iff_lookup {d e : Dispatch} (hd : d.Ordered) (he : e.Ordered) :
    d.same e = true ↔
      d.fallback.same e.fallback = true ∧ d.entries.length = e.entries.length ∧
        ∀ m f, (m, f) ∈ d.entries → ∃ g, (m, g) ∈ e.entries ∧ f.same g = true := by
  have hlookup : d.settings.entries ⊆ e.settings.entries ↔
      ∀ m f, (m, f) ∈ d.entries → ∃ g, (m, g) ∈ e.entries ∧ f.same g = true := by
    simp only [List.subset_def, entries_settings, List.mem_map, Filter.same_iff]
    constructor
    · intro h m f hf
      obtain ⟨⟨n, g⟩, hg, heq⟩ := h ⟨(m, f), hf, rfl⟩
      obtain ⟨rfl, hsettings⟩ := Prod.mk.inj heq
      exact ⟨g, hg, hsettings.symm⟩
    · rintro h _ ⟨⟨m, f⟩, hf, rfl⟩
      obtain ⟨g, hg, hsettings⟩ := h m f hf
      exact ⟨(m, g), hg, by rw [hsettings]⟩
  have hlength (c : Dispatch) : c.settings.entries.length = c.entries.length := by
    rw [entries_settings, List.length_map]
  rw [same_iff, Filter.same_iff, ← fallback_settings, ← fallback_settings, ← hlookup, ← hlength d,
    ← hlength e]
  constructor
  · intro h
    rw [h]
    exact ⟨rfl, rfl, List.Subset.refl _⟩
  · rintro ⟨hfallback, hcount, hsubset⟩
    exact ext_entries (hd.settings.entries_eq he.settings hsubset hcount) hfallback

end Dispatch

end TextAnalysis
