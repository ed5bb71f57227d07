import TextAnalysis.Stream

/-!
# One step of a stream

A stream passes every update through all its filters before it looks at the next one. Seen from the
last filter, this is a filter that pulls at the stream in front of it: it advances that stream, does
its work on the record, and goes on pulling as long as it drops tokens.

Main statements: `passThrough_append` (filters in two groups) and `Stream.advance_behind` (a stream
with one more filter, in terms of the stream without it).
-/

set_option autoImplicit false

namespace TextAnalysis

/-! ## What filters settle on -/

/-- The work of a filter before the first token is what it settles on for the mode of that token. -/
theorem Running.worker_ofFilter (keepForms : Bool) (mode : String) (f : Filter) :
    (Running.ofFilter keepForms f).worker mode = f.settle keepForms mode := by
  cases f <;> rfl

/-- A dispatching filter settles on the work of the filter that is selected, or on none where that
filter is passed over. -/
theorem Dispatch.settle_eq (keepForms : Bool) (mode : String) :
    ∀ d : Dispatch, d.settle keepForms mode =
      if keepForms && (d.select mode).isMorph then .pass else (d.select mode).settle keepForms mode
  | .otherwise f => rfl
  | .mode m f rest => by
    simp only [Dispatch.settle, Dispatch.select]
    split
    · rfl
    · exact settle_eq keepForms mode rest

/-! ## Passing a token through filters -/

/-- A token passes two groups of filters one after the other, the second only if the first keeps
it. -/
theorem passThrough_append (w : Workspace) (t : Token) (first last : List Running) :
    passThrough w t (first ++ last) =
      let p := passThrough w t first
      if p.kept then
        let q := passThrough p.workspace p.token last
        ⟨q.workspace, p.filter ++ q.filter, q.token, q.kept⟩
      else ⟨p.workspace, p.filter ++ last, p.token, false⟩ := by
  induction first generalizing w t with
  | nil => simp [passThrough]
  | cons r rest ih =>
    simp only [List.cons_append, passThrough]
    cases hr : (r.step w t).kept with
    | false => simp
    | true =>
      simp only [ih, ↓reduceIte]
      cases hq : (passThrough (r.step w t).workspace (r.step w t).token rest).kept <;> simp

/-- Passing a single filter is one step of it. -/
theorem passThrough_singleton (w : Workspace) (t : Token) (r : Running) :
    passThrough w t [r] =
      let p := r.step w t
      ⟨p.workspace, [p.filter], p.token, p.kept⟩ := by
  simp only [passThrough]
  cases (r.step w t).kept <;> simp

/-! ## Steps -/

namespace Stream

/-- One more filter behind the others, at work or waiting. -/
def behind (s : Stream) (r : Running) : Stream := { s with filters := s.filters ++ [r] }

/-- Where nothing is pending, advancing changes nothing and says so. -/
theorem advance_of_pending_eq_nil {s : Stream} (h : s.pending = []) (w : Workspace) :
    s.advance w = (false, s, w) := by
  simp only [advance, h, advanceFrom]
  rw [← h]

/-- One step takes at least one of the pending updates, if there is any. -/
theorem advanceFrom_pending_length (w : Workspace) (record : Token) (filters : List Running)
    (updates : List Update) :
    (advanceFrom w record filters updates).2.1.pending.length ≤ updates.length - 1 := by
  induction updates generalizing w record filters with
  | nil => simp [advanceFrom]
  | cons u rest ih =>
    simp only [advanceFrom]
    split
    · simp
    · have hle := ih (passThrough w (u.apply record) filters).workspace
        (passThrough w (u.apply record) filters).token
        (passThrough w (u.apply record) filters).filter
      simp only [List.length_cons]
      omega

/-- A stream that finds no token has taken all updates. -/
theorem advanceFrom_pending_eq_nil {w : Workspace} {record : Token} {filters : List Running}
    {updates : List Update} (h : (advanceFrom w record filters updates).1 = false) :
    (advanceFrom w record filters updates).2.1.pending = [] := by
  induction updates generalizing w record filters with
  | nil => rfl
  | cons u rest ih =>
    simp only [advanceFrom] at h ⊢
    split at h
    · cases h
    · next hkept =>
      rw [if_neg hkept]
      exact ih h

/-- So has one that does not advance. -/
theorem pending_of_advance_eq_false {w : Workspace} {s : Stream} (h : (s.advance w).1 = false) :
    (s.advance w).2.1.pending = [] :=
  advanceFrom_pending_eq_nil h

/-- A stream that advances has fewer updates pending. -/
theorem pending_length_lt_of_advance {w : Workspace} {s : Stream} (h : (s.advance w).1 = true) :
    (s.advance w).2.1.pending.length < s.pending.length := by
  have hle := advanceFrom_pending_length w s.record s.filters s.pending
  have hne : s.pending ≠ [] := by
    intro hnil
    rw [advance_of_pending_eq_nil hnil] at h
    cases h
  have hpos := List.length_pos_iff.mpr hne
  unfold advance
  omega

/-- **A filter pulls at the stream in front of it.** Where that stream has no token, nothing reaches
the filter. Where it has one, the filter does its work on it, and if it drops the token, the stream
goes on from there. -/
theorem advance_behind (w : Workspace) (s : Stream) (r : Running) :
    (s.behind r).advance w =
      match s.advance w with
      | (false, s', w') => (false, s'.behind r, w')
      | (true, s', w') =>
        let p := r.step w' s'.record
        let next := { s' with record := p.token }.behind p.filter
        if p.kept then (true, next, p.workspace) else next.advance p.workspace := by
  obtain ⟨record, updates, filters⟩ := s
  simp only [behind, advance]
  induction updates generalizing w record filters r with
  | nil => rfl
  | cons u rest ih =>
    rw [advanceFrom, advanceFrom, passThrough_append]
    cases hp : (passThrough w (u.apply record) filters).kept with
    | false =>
      simp only [hp, Bool.false_eq_true, ↓reduceIte]
      exact ih _ _ _ _
    | true =>
      simp only [hp, ↓reduceIte, passThrough_singleton]

end Stream

end TextAnalysis
