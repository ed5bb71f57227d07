import TextAnalysis.Proofs.Dispatching
import TextAnalysis.Proofs.Rewriting
import TextAnalysis.Proofs.Text.Editing

/-!
# Filters that edit the record in place

The filters for lower case, for white space and for characters do their work on the bytes of the text
in the record of a stream, and the last of them keeps the bytes of the text before in a buffer, which
it writes the next text into. Here these filters are put on a stream in this way (`Editor.advance`).
What an editor makes of a text depends on the text alone (`Editor.Computes`), and then its tokens are
those of the stream with the filter behind it, whatever the buffer holds at the start.

Main statement: `text_filters_edit_in_place`.
-/

set_option autoImplicit false

namespace TextAnalysis

open Text (EditFault Buffer.encode Buffer.view Buffer.view_encode)

/-- What edits the bytes of a text in place, with a buffer that it keeps from token to token. -/
abbrev Editor := List UInt8 → List UInt8 → Except EditFault (List UInt8 × List UInt8)

namespace Editor

variable (e : Editor)

/-- Edits the text of a token. -/
def editToken (t : Token) (scratch : List UInt8) : Except EditFault (Token × List UInt8) := do
  let (bytes, scratch) ← e (Buffer.encode t.text.toList) scratch
  let cs ← Buffer.view bytes
  return ({ t with text := String.ofList cs }, scratch)

/-- Advances a stream and edits the text in its record. Where there is no further token, the record
stays as it is. -/
def advance (w : Workspace) (s : Stream) (scratch : List UInt8) :
    Except EditFault (Bool × Stream × List UInt8 × Workspace) :=
  match s.advance w with
  | (false, s, w) => .ok (false, s, scratch, w)
  | (true, s, w) => do
    let (t, scratch) ← e.editToken s.record scratch
    return (true, { s with record := t }, scratch, w)

/-- The tokens up to the end of the stream, at most `count` of them. -/
def take (count : Nat) (w : Workspace) (s : Stream) (scratch : List UInt8) :
    Except EditFault (List Token) :=
  match count with
  | 0 => .ok []
  | count + 1 => do
    let (found, s, scratch, w) ← e.advance w s scratch
    if found then
      let tokens ← take count w s scratch
      return s.record :: tokens
    else return []

/-- The editor makes the same of a text whatever the buffer holds. -/
def Computes (g : List Char → List Char) : Prop :=
  ∀ (cs : List Char) (scratch : List UInt8),
    ∃ scratch', e (Buffer.encode cs) scratch = .ok (Buffer.encode (g cs), scratch')

variable {e} {g : List Char → List Char}

/-- An editor that computes a function edits a token into the one with the rewritten text. -/
theorem Computes.exists_editToken (h : e.Computes g) (t : Token) (scratch : List UInt8) :
    ∃ scratch', e.editToken t scratch = .ok (t.rewrite g, scratch') := by
  obtain ⟨scratch', hedit⟩ := h t.text.toList scratch
  refine ⟨scratch', ?_⟩
  rw [editToken, hedit]
  change (Buffer.view (Buffer.encode (g t.text.toList)) >>= fun cs => _) = _
  rw [Buffer.view_encode]
  rfl

variable {w : Workspace} {s : Stream}

/-- Where the stream has ended, an editor has nothing to edit. -/
theorem advance_of_eq_false (h : (s.advance w).1 = false) (scratch : List UInt8) :
    e.advance w s scratch = .ok (false, (s.advance w).2.1, scratch, (s.advance w).2.2) := by
  rw [advance]
  split
  · next heq => rw [heq]
  · next heq => rw [heq] at h; cases h

/-- Where the stream advances, the editor edits its token. -/
theorem Computes.exists_advance (h : e.Computes g) (hs : (s.advance w).1 = true)
    (scratch : List UInt8) :
    ∃ scratch', e.advance w s scratch =
      .ok (true, { (s.advance w).2.1 with record := (s.advance w).2.1.record.rewrite g }, scratch',
        (s.advance w).2.2) := by
  obtain ⟨scratch', htoken⟩ := h.exists_editToken (s.advance w).2.1.record scratch
  refine ⟨scratch', ?_⟩
  rw [advance]
  split
  · next heq => rw [heq] at hs; cases hs
  · next heq =>
    rw [heq] at htoken ⊢
    rw [htoken]
    rfl

end Editor

namespace Stream

variable {g : List Char → List Char} {k : Worker}

/-- A filter that rewrites texts passes every token on. -/
theorem advance_behind_of_rewrites {w : Workspace} {s : Stream} (hk : k.Rewrites g)
    (h : (s.advance w).1 = true) :
    (s.behind (.working k)).advance w =
      (true, { (s.advance w).2.1 with record := (s.advance w).2.1.record.rewrite g }.behind
        (.working k), (s.advance w).2.2) := by
  rw [advance_behind_of_eq_true _ h]
  simp only [Running.step, Running.worker, hk _ _, if_true]

/-- The tokens of a list come out with their texts rewritten, and no others. -/
theorem take_replace_of_rewrites (hk : k.Rewrites g) (count : Nat) (w : Workspace) (record : Token)
    (ts : List Token) :
    (take count w ⟨record, ts.map .replace, [.working k]⟩).1 =
      (ts.take count).map (Token.rewrite g) := by
  induction count generalizing w record ts with
  | zero => rfl
  | succ count ih =>
    cases ts with
    | nil => rfl
    | cons t rest =>
      have hadvance : advance w ⟨record, (t :: rest).map .replace, [.working k]⟩ =
          (true, ⟨t.rewrite g, rest.map .replace, [.working k]⟩, w) := by
        rw [advance, List.map_cons, advanceFrom, Update.apply, passThrough_cons_of_kept (hk w t)]
        rfl
      rw [take_of_advance_eq_true _ (by rw [hadvance]), hadvance, ih]
      rfl

end Stream

/-- An editor gives the tokens of the filter that rewrites texts in the same way. -/
theorem Editor.Computes.take_eq {e : Editor} {g : List Char → List Char} {k : Worker}
    (h : e.Computes g) (hk : k.Rewrites g) (count : Nat) (w : Workspace) (s : Stream)
    (scratch : List UInt8) :
    e.take count w s scratch = .ok ((s.behind (.working k)).take count w).1 := by
  -- What the buffer holds changes from token to token, and nothing is assumed about it.
  induction count generalizing w s scratch with
  | zero => rfl
  | succ count ih =>
    cases hs : (s.advance w).1 with
    | false =>
      have hbehind : ((s.behind (.working k)).advance w).1 = false := by
        rw [Stream.advance_behind_of_eq_false _ hs]
      rw [Editor.take, advance_of_eq_false hs, Stream.take_of_advance_eq_false _ hbehind]
      rfl
    | true =>
      obtain ⟨scratch', hadvance⟩ := h.exists_advance hs scratch
      have hbehind := Stream.advance_behind_of_rewrites hk hs
      rw [Editor.take, hadvance, Stream.take_of_advance_eq_true _ (by rw [hbehind]), hbehind]
      change (e.take count _ _ scratch' >>= fun tokens => _) = _
      rw [ih]
      rfl

/-! ## The filters -/

/-- The filters that edit texts in place. -/
inductive TextFilter where
  | lowercase
  | strip
  | charset (m : CharMap)

namespace TextFilter

/-- How the filter edits the bytes of a text. -/
def editor : TextFilter → Editor
  | lowercase => fun b scratch => (Text.Buffer.lowercase b).map fun b => (b, scratch)
  | strip => fun b scratch => (Text.Buffer.strip b).map fun b => (b, scratch)
  | charset m => Text.Buffer.translate m

/-- What the filter is to make of a text: its full lower case, the text without the white space at
its ends, or the text with its characters replaced. -/
def plain : TextFilter → List Char → List Char
  | lowercase => Unicode.lowercase
  | strip => Text.trim
  | charset m => m.applyChars

/-- The filter as a stage. -/
def filter : TextFilter → Filter
  | lowercase => .lowercase
  | strip => .strip
  | charset m => .charset m

/-- The editor of a text filter computes what the filter does. -/
theorem computes (f : TextFilter) : f.editor.Computes f.plain := by
  intro cs scratch
  cases f with
  | lowercase =>
    exact ⟨scratch, congrArg (Except.map fun b => (b, scratch)) (Text.Buffer.lowercase_encode cs)⟩
  | strip =>
    exact ⟨scratch, congrArg (Except.map fun b => (b, scratch)) (Text.Buffer.strip_encode cs)⟩
  | charset m => exact ⟨_, Text.Buffer.translate_encode m cs scratch⟩

/-- A text filter at work rewrites texts by the same function. -/
theorem rewrites (f : TextFilter) (keepForms : Bool) (mode : String) :
    (f.filter.settle keepForms mode).Rewrites f.plain := by
  cases f with
  | lowercase | strip | charset => exact fun _ _ => rfl

/-- Putting a text filter on a stream puts its worker behind it. -/
theorem through_eq (f : TextFilter) (keepForms : Bool) (s : Stream) :
    s.through keepForms f.filter = s.behind (.working (f.filter.settle keepForms "")) := by
  cases f <;> rfl

end TextFilter

/-- **Filters that edit texts in place compute what they are meant to.** On every list of tokens, and
whatever their buffer holds at the start, the filters for lower case, for white space and for
characters give the tokens of the list in order and unchanged, except for their texts, which are in
full lower case, without the white space at their ends, or with their characters replaced: no cut
stands inside a character, nothing is taken from less, and the bytes stay a text. On every stream they
give the tokens of the library's filter. Stripping takes off all the white space at the ends and
nothing else, so that a second time changes nothing. -/
theorem text_filters_edit_in_place (f : TextFilter) (scratch : List UInt8) (w : Workspace)
    (count : Nat) :
    (∀ ts : List Token,
      f.editor.take count w (.ofTokens ts) scratch =
        .ok ((ts.take count).map fun t =>
          { t with text := String.ofList (f.plain t.text.toList) })) ∧
    (∀ (s : Stream) (keepForms : Bool),
      f.editor.take count w s scratch = .ok ((s.through keepForms f.filter).take count w).1) ∧
    ∀ cs, Text.Trims cs (TextFilter.strip.plain cs) ∧
      TextFilter.strip.plain (TextFilter.strip.plain cs) = TextFilter.strip.plain cs := by
  have hstream (s : Stream) (keepForms : Bool) :
      f.editor.take count w s scratch = .ok ((s.through keepForms f.filter).take count w).1 := by
    rw [f.through_eq]
    exact f.computes.take_eq (f.rewrites keepForms "") count w s scratch
  refine ⟨fun ts => ?_, hstream, fun cs => ⟨Text.trims_trim cs, Text.trim_trim cs⟩⟩
  rw [hstream _ false, f.through_eq]
  exact congrArg Except.ok (Stream.take_replace_of_rewrites (f.rewrites false "") count w {} ts)

end TextAnalysis
