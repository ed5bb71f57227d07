import TextAnalysis.Filter
import TextAnalysis.Workspace

/-!
# Streams of tokens

A stream has one record, a token, which changes at every step: the source of the stream writes
the next update into it, and the filters change it one after the other. A filter may drop the token;
then the stream goes on with the next update. `Stream.advance` takes one step of a stream; nothing
happens between steps.

A dispatching filter waits for its first token and then becomes the filter for the mode of that
token.
-/

set_option autoImplicit false

namespace TextAnalysis

/-- What a source writes into the record at one step. -/
inductive Update where
  /-- A whole token. -/
  | replace (t : Token)
  /-- A text, with the annotations that were asked for. -/
  | load (text : String) (keepUnfiltered : Bool) (position : Option Nat)
    (offsets : Option (Nat × Nat))

/-- The record after an update. Annotations that were not asked for stay as they are. -/
def Update.apply (t : Token) : Update → Token
  | replace u => u
  | load text keepUnfiltered position offsets =>
    let t := t.load text keepUnfiltered
    let t := match position with
      | some p => { t with position := some p }
      | none => t
    match offsets with
    | some (first, last) => { t with startOffset := some first, endOffset := some last }
    | none => t

/-- A filter at work on a stream, with what it remembers of the tokens before. -/
inductive Worker where
  | pass
  | lowercase
  | strip
  | charset (m : CharMap)
  /-- A stop filter and the last position that it has given. -/
  | stop (f : StopFilter) (last : Option Nat)
  | stem (f : StemFilter)
  | report (r : Reporter)
  /-- Drops the tokens that are marked as stopped. -/
  | unstopped

/-- A token behind a filter: the workspace, the filter and the token as they are now, and whether
the token is kept. -/
structure Passed (α : Type) where
  workspace : Workspace
  filter : α
  token : Token
  kept : Bool

/-- Passes a token through a filter at work. -/
def Worker.step (w : Workspace) (t : Token) : Worker → Passed Worker
  | pass => ⟨w, pass, t, true⟩
  | lowercase =>
    ⟨w, lowercase, { t with text := String.ofList (Unicode.lowercase t.text.toList) }, true⟩
  | strip => ⟨w, strip, { t with text := String.ofList (Text.trim t.text.toList) }, true⟩
  | charset m => ⟨w, charset m, { t with text := m.apply t.text }, true⟩
  | stop f last =>
    match f.apply last t with
    | (t, last, kept) => ⟨w, stop f last, t, kept⟩
  | stem f =>
    if t.stopped || f.ignored.contains t.text then ⟨w, stem f, t, true⟩
    else
      match w.stem f t.text with
      | (text, w) => ⟨w, stem f, { t with text := text }, true⟩
  | report r =>
    match r.sink with
    | some sink => ⟨w.report (.line sink t.describe), report r, t, true⟩
    | none => ⟨w.report (.message .debug (some r.target) t.describe), report r, t, true⟩
  | unstopped => ⟨w, unstopped, t, !t.stopped⟩

mutual

/-- The work that a filter does on a stream whose tokens have the given mode. Where word forms are
kept, a dispatching filter passes over those that change them. -/
def Filter.settle (keepForms : Bool) (mode : String) : Filter → Worker
  | .pass => .pass
  | .lowercase => .lowercase
  | .strip => .strip
  | .charset m => .charset m
  | .stop f => .stop f none
  | .stem f => .stem f
  | .report r => .report r
  | .dispatch d => d.settle keepForms mode

/-- The work of the filter for the given mode. -/
def Dispatch.settle (keepForms : Bool) (mode : String) : Dispatch → Worker
  | .otherwise f => if keepForms && f.isMorph then .pass else f.settle keepForms mode
  | .mode m f rest =>
    if m = mode then (if keepForms && f.isMorph then .pass else f.settle keepForms mode)
    else rest.settle keepForms mode

end

/-- A filter on a stream: at work, or waiting for the first token. -/
inductive Running where
  | waiting (keepForms : Bool) (d : Dispatch)
  | working (k : Worker)

namespace Running

/-- A filter before the first token. -/
def ofFilter (keepForms : Bool) : Filter → Running
  | .dispatch d => waiting keepForms d
  | f => working (f.settle keepForms "")

/-- What the filter does with a token of the given mode. -/
def worker (mode : String) : Running → Worker
  | waiting keepForms d => d.settle keepForms mode
  | working k => k

/-- Passes a token through the filter. -/
def step (w : Workspace) (t : Token) (r : Running) : Passed Running :=
  let p := (r.worker t.mode).step w t
  ⟨p.workspace, working p.filter, p.token, p.kept⟩

end Running

/-- Passes a token through filters, up to the first that drops it. -/
def passThrough (w : Workspace) (t : Token) : List Running → Passed (List Running)
  | [] => ⟨w, [], t, true⟩
  | r :: rest =>
    let p := r.step w t
    if p.kept then
      let q := passThrough p.workspace p.token rest
      ⟨q.workspace, p.filter :: q.filter, q.token, q.kept⟩
    else ⟨p.workspace, p.filter :: rest, p.token, false⟩

/-- A stream of tokens. -/
structure Stream where
  /-- The record: the current token once there is one. -/
  record : Token := {}
  /-- What the source has yet to write. -/
  pending : List Update := []
  /-- The filters, in the order in which tokens pass them. -/
  filters : List Running := []

namespace Stream

/-- Steps through the pending updates to the first token that no filter drops. -/
def advanceFrom (w : Workspace) (record : Token) (filters : List Running) :
    List Update → Bool × Stream × Workspace
  | [] => (false, ⟨record, [], filters⟩, w)
  | u :: rest =>
    let p := passThrough w (u.apply record) filters
    if p.kept then (true, ⟨p.token, rest, p.filter⟩, p.workspace)
    else advanceFrom p.workspace p.token p.filter rest

/-- Moves to the next token; false where there is none. -/
def advance (w : Workspace) (s : Stream) : Bool × Stream × Workspace :=
  advanceFrom w s.record s.filters s.pending

/-- The tokens up to the end of the stream, at most `count` of them, and the stream behind them. -/
def take (count : Nat) (w : Workspace) (s : Stream) : List Token × Stream × Workspace :=
  match count with
  | 0 => ([], s, w)
  | count + 1 =>
    match s.advance w with
    | (true, s, w) =>
      let (tokens, s', w') := take count w s
      (s.record :: tokens, s', w')
    | (false, s, w) => ([], s, w)

/-- All tokens up to the end of the stream. -/
def drain (w : Workspace) (s : Stream) : List Token × Stream × Workspace :=
  take s.pending.length w s

/-- One more filter behind the others. -/
def through (s : Stream) (keepForms : Bool) (f : Filter) : Stream :=
  { s with filters := s.filters ++ [Running.ofFilter keepForms f] }

/-- Drops the tokens that are marked as stopped. -/
def unstopped (s : Stream) : Stream :=
  { s with filters := s.filters ++ [.working .unstopped] }

/-- The stream of the given tokens. -/
def ofTokens (tokens : List Token) : Stream := { pending := tokens.map .replace }

/-- The updates for texts that follow one another directly, from a position and an offset on. -/
def updatesOfTexts (o : Options) (position offset : Nat) : List String → List Update
  | [] => []
  | text :: rest =>
    let after := Saturating.add offset text.utf8ByteSize
    .load text false (if o.positions then some position else none)
        (if o.offsets then some (offset, after) else none) ::
      updatesOfTexts o (Saturating.add position 1) after rest

/-- The stream of texts that have been cut already. -/
def ofTexts (o : Options) (texts : List String) : Stream :=
  { record := .ofOptions o, pending := updatesOfTexts o o.firstPosition o.firstOffset texts }

end Stream

end TextAnalysis
