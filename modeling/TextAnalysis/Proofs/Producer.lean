import TextAnalysis.Proofs.Advancing

/-!
# Producers of tokens

A producer is a source of tokens as its consumer sees it: it can be advanced, and it has a record
that holds the current token and that the consumer may overwrite. Producers are finite, and once one
has ended it gives no more tokens. Streams are producers (`Producer.streams`), but nothing here needs
to know how a producer comes by its tokens.

A filter is attached to a producer in the most direct way (`Filter.attach`). A filter that works token
by token pulls at the producer until it keeps a token. A dispatching filter pulls once, looks at the
mode of that token, chooses a filter, gives the token back (`Producer.replay`) and attaches the chosen
filter to what it has then.
-/

set_option autoImplicit false

namespace TextAnalysis

/-- A source of tokens with one record. -/
structure Producer where
  /-- What the producer remembers. -/
  State : Type
  /-- The record: the current token once there is one. -/
  record : State → Token
  /-- Overwrites the record. -/
  write : Token → State → State
  /-- Moves to the next token; false where there is none. -/
  advance : Workspace → State → Bool × State × Workspace
  /-- A bound on the number of tokens to come. -/
  remaining : State → Nat
  record_write : ∀ t s, record (write t s) = t
  remaining_write : ∀ t s, remaining (write t s) = remaining s
  remaining_advance : ∀ w s, (advance w s).1 = true → remaining (advance w s).2.1 < remaining s
  advance_ended : ∀ w s, (advance w s).1 = false → ∀ w', (advance w' (advance w s).2.1).1 = false

namespace Producer

/-- The streams of the library. -/
@[reducible]
def streams : Producer where
  State := Stream
  record := Stream.record
  write t s := { s with record := t }
  advance w s := s.advance w
  remaining s := s.pending.length
  record_write _ _ := rfl
  remaining_write _ _ := rfl
  remaining_advance _ _ h := Stream.pending_length_lt_of_advance h
  advance_ended w s h w' := by
    rw [Stream.advance_of_pending_eq_nil (Stream.pending_of_advance_eq_false h)]

/-- What a consumer sees of the first `n` steps: whether there was a token, and the record after
the step. -/
def seen (P : Producer) : Nat → Workspace → P.State → List (Bool × Token)
  | 0, _, _ => []
  | n + 1, w, s =>
    ((P.advance w s).1, P.record (P.advance w s).2.1) ::
      P.seen n (P.advance w s).2.2 (P.advance w s).2.1

/-- The producer and the workspace after `n` steps. -/
def after (P : Producer) : Nat → Workspace → P.State → P.State × Workspace
  | 0, w, s => (s, w)
  | n + 1, w, s => P.after n (P.advance w s).2.2 (P.advance w s).2.1

/-- What is seen in one more step is what the state reached shows next. -/
theorem seen_succ (P : Producer) (n : Nat) (w : Workspace) (s : P.State) :
    P.seen (n + 1) w s =
      P.seen n w s ++
        [((P.advance (P.after n w s).2 (P.after n w s).1).1,
          P.record (P.advance (P.after n w s).2 (P.after n w s).1).2.1)] := by
  induction n generalizing w s with
  | zero => rfl
  | succ n ih =>
    rw [seen, ih]
    rfl

/-- One more step is taken from where the steps before it have led. -/
theorem after_succ (P : Producer) (n : Nat) (w : Workspace) (s : P.State) :
    P.after (n + 1) w s = (P.advance (P.after n w s).2 (P.after n w s).1).2 := by
  induction n generalizing w s with
  | zero => rfl
  | succ n ih =>
    rw [after, ih]
    rfl

/-- A producer that has ended shows no token in any number of steps. -/
theorem seen_of_ended (P : Producer) {w : Workspace} {s : P.State}
    (h : (P.advance w s).1 = false) (n : Nat) : ∀ o ∈ P.seen n w s, o.1 = false := by
  induction n generalizing w s with
  | zero => simp [seen]
  | succ n ih =>
    intro o ho
    rw [seen, List.mem_cons] at ho
    rcases ho with rfl | ho
    · exact h
    · exact ih (P.advance_ended w s h _) o ho

/-- Two producers show the same in any number of steps, and leave the same workspace. -/
def ShowSame (P Q : Producer) (w : Workspace) (s : P.State) (t : Q.State) : Prop :=
  ∀ n, P.seen n w s = Q.seen n w t ∧ (P.after n w s).2 = (Q.after n w t).2

/-! ## Filters that work token by token -/

/-- Advances the producer until the worker keeps a token. -/
def pull (P : Producer) (w : Workspace) (s : P.State) (k : Worker) :
    Bool × (P.State × Worker) × Workspace :=
  if _h : (P.advance w s).1 = true then
    let p := k.step (P.advance w s).2.2 (P.record (P.advance w s).2.1)
    let next := P.write p.token (P.advance w s).2.1
    if p.kept then (true, (next, p.filter), p.workspace) else P.pull p.workspace next p.filter
  else (false, ((P.advance w s).2.1, k), (P.advance w s).2.2)
termination_by P.remaining s
decreasing_by
  rw [P.remaining_write]
  exact P.remaining_advance w s ‹_›

/-- Where a producer ends, nothing is pulled through the worker. -/
theorem pull_of_advance_eq_false (P : Producer) {w : Workspace} {s : P.State} (k : Worker)
    (h : (P.advance w s).1 = false) :
    P.pull w s k = (false, ((P.advance w s).2.1, k), (P.advance w s).2.2) := by
  rw [pull, dif_neg (by rw [h]; simp)]

/-- Where it advances, the worker takes the record, and pulls again if it drops the token. -/
theorem pull_of_advance_eq_true (P : Producer) {w : Workspace} {s : P.State} (k : Worker)
    (h : (P.advance w s).1 = true) :
    P.pull w s k =
      let p := k.step (P.advance w s).2.2 (P.record (P.advance w s).2.1)
      let next := P.write p.token (P.advance w s).2.1
      if p.kept then (true, (next, p.filter), p.workspace) else P.pull p.workspace next p.filter := by
  rw [pull, dif_pos h]

/-- A token that is pulled leaves fewer steps. -/
theorem remaining_pull (P : Producer) (w : Workspace) (s : P.State) (k : Worker)
    (h : (P.pull w s k).1 = true) : P.remaining (P.pull w s k).2.1.1 < P.remaining s := by
  fun_induction P.pull w s k with
  | case1 w s k hfound p next hkept =>
    simp only [next, P.remaining_write]
    exact P.remaining_advance w s hfound
  | case2 w s k hfound p next hkept ih =>
    have hlt := P.remaining_advance w s hfound
    rw [← P.remaining_write p.token] at hlt
    exact Nat.lt_trans (ih h) hlt
  | case3 => cases h

/-- Once nothing could be pulled, the producer has ended in any workspace. -/
theorem advance_of_pull_eq_false (P : Producer) {w : Workspace} {s : P.State} {k : Worker}
    (h : (P.pull w s k).1 = false) (w' : Workspace) :
    (P.advance w' (P.pull w s k).2.1.1).1 = false := by
  fun_induction P.pull w s k with
  | case1 => cases h
  | case2 w s k hfound p next hkept ih => exact ih h
  | case3 w s k hfound => exact P.advance_ended w s (Bool.not_eq_true _ ▸ hfound) w'

/-- The producer that a worker makes of another. -/
def behind (P : Producer) : Producer where
  State := P.State × Worker
  record s := P.record s.1
  write t s := (P.write t s.1, s.2)
  advance w s := P.pull w s.1 s.2
  remaining s := P.remaining s.1
  record_write t s := P.record_write t s.1
  remaining_write t s := P.remaining_write t s.1
  remaining_advance w s h := P.remaining_pull w s.1 s.2 h
  advance_ended w s h w' := by
    rw [P.pull_of_advance_eq_false _ (P.advance_of_pull_eq_false h w')]

/-! ## Giving a token back -/

/-- The producer that yields the current token once more before it goes on, as long as its state
says so. -/
def replay (P : Producer) : Producer where
  State := Bool × P.State
  record s := P.record s.2
  write t s := (s.1, P.write t s.2)
  advance w s :=
    match s with
    | (true, s) => (true, (false, s), w)
    | (false, s) => ((P.advance w s).1, (false, (P.advance w s).2.1), (P.advance w s).2.2)
  remaining s := P.remaining s.2 + s.1.toNat
  record_write t s := P.record_write t s.2
  remaining_write t s := by rw [P.remaining_write]
  remaining_advance := by
    rintro w ⟨b, s⟩ h
    cases b with
    | true => simp
    | false => simpa using P.remaining_advance w s h
  advance_ended := by
    rintro w ⟨b, s⟩ h w'
    cases b with
    | true => cases h
    | false => exact P.advance_ended w s h w'

/-- The producer with its first token given back. -/
def again (P : Producer) (s : P.State) : P.replay.State := (true, s)

/-- The token that is given back counts as one more step. -/
theorem remaining_again (P : Producer) (s : P.State) :
    P.replay.remaining (P.again s) = P.remaining s + 1 := rfl

end Producer

/-! ## Attaching filters -/

/-- A producer made of another by attaching a filter, and the state in which it starts. -/
structure Attached (P : Producer) where
  producer : Producer
  start : P.State → producer.State
  remaining_start : ∀ s, producer.remaining (start s) ≤ P.remaining s

namespace Attached

/-- Nothing attached. -/
def bare (P : Producer) : Attached P := ⟨P, id, fun _ => Nat.le_refl _⟩

/-- A worker attached. -/
def working (P : Producer) (k : Worker) : Attached P :=
  ⟨P.behind, fun s => (s, k), fun _ => Nat.le_refl _⟩

/-- The states of a producer to which a dispatching filter is attached. `sub` says what is attached
for each mode, once the first token has been given back. -/
inductive Choice (P : Producer) (sub : String → Attached P.replay) where
  /-- No token has been pulled yet. -/
  | pending (s : P.State)
  /-- There was no first token. -/
  | ended (s : P.State)
  /-- The filter for a mode has been attached. -/
  | active (mode : String) (s : (sub mode).producer.State)

namespace Choice

variable {P : Producer} {sub : String → Attached P.replay}

/-- The record of the producer, or of what is attached to it. -/
def record : Choice P sub → Token
  | pending s | ended s => P.record s
  | active mode s => (sub mode).producer.record s

/-- Writes into this record. -/
def write (t : Token) : Choice P sub → Choice P sub
  | pending s => pending (P.write t s)
  | ended s => ended (P.write t s)
  | active mode s => active mode ((sub mode).producer.write t s)

/-- Advances what has been attached. The first step pulls a token, attaches what its mode asks for,
and advances that. -/
def advance (w : Workspace) : Choice P sub → Bool × Choice P sub × Workspace
  | pending s =>
    if (P.advance w s).1 then
      let mode := (P.record (P.advance w s).2.1).mode
      let r := (sub mode).producer.advance (P.advance w s).2.2
        ((sub mode).start (P.again (P.advance w s).2.1))
      (r.1, active mode r.2.1, r.2.2)
    else (false, ended (P.advance w s).2.1, (P.advance w s).2.2)
  | ended s => ((P.advance w s).1, ended (P.advance w s).2.1, (P.advance w s).2.2)
  | active mode s =>
    let r := (sub mode).producer.advance w s
    (r.1, active mode r.2.1, r.2.2)

/-- How many steps are left at most. -/
def remaining : Choice P sub → Nat
  | pending s | ended s => P.remaining s
  | active mode s => (sub mode).producer.remaining s

/-- A dispatching filter that gets no token has ended. -/
theorem advance_pending_of_eq_false {w : Workspace} {s : P.State} (h : (P.advance w s).1 = false) :
    (pending s : Choice P sub).advance w =
      (false, ended (P.advance w s).2.1, (P.advance w s).2.2) := by
  rw [advance, h]
  rfl

/-- One that gets its first token attaches the filter of the mode of this token, and gives the token
back to it. -/
theorem advance_pending_of_eq_true {w : Workspace} {s : P.State} (h : (P.advance w s).1 = true) :
    (pending s : Choice P sub).advance w =
      let mode := (P.record (P.advance w s).2.1).mode
      let r := (sub mode).producer.advance (P.advance w s).2.2
        ((sub mode).start (P.again (P.advance w s).2.1))
      (r.1, active mode r.2.1, r.2.2) := by
  rw [advance, if_pos h]

/-- A step that gives a token uses up at least one of the tokens to come. The token that is given
back counts once more, which makes up for the one that was pulled. -/
theorem remaining_advance (w : Workspace) (s : Choice P sub) (h : (s.advance w).1 = true) :
    (s.advance w).2.1.remaining < s.remaining := by
  cases s with
  | pending s =>
    cases hfound : (P.advance w s).1 with
    | false => rw [advance_pending_of_eq_false hfound] at h; cases h
    | true =>
      rw [advance_pending_of_eq_true hfound] at h ⊢
      have hpull := P.remaining_advance w s hfound
      have hstart := (sub (P.record (P.advance w s).2.1).mode).remaining_start
        (P.again (P.advance w s).2.1)
      have hsub := (sub (P.record (P.advance w s).2.1).mode).producer.remaining_advance _ _ h
      simp only [remaining]
      rw [Producer.remaining_again] at hstart
      omega
  | ended s => exact P.remaining_advance w s h
  | active mode s => exact (sub mode).producer.remaining_advance w s h

/-- A dispatching filter that has ended stays ended. -/
theorem advance_ended (w : Workspace) (s : Choice P sub) (h : (s.advance w).1 = false)
    (w' : Workspace) : ((s.advance w).2.1.advance w').1 = false := by
  cases s with
  | pending s =>
    cases hfound : (P.advance w s).1 with
    | false =>
      rw [advance_pending_of_eq_false hfound]
      exact P.advance_ended w s hfound w'
    | true =>
      rw [advance_pending_of_eq_true hfound] at h ⊢
      exact Producer.advance_ended _ _ _ h w'
  | ended s => exact P.advance_ended w s h w'
  | active mode s => exact (sub mode).producer.advance_ended w s h w'

end Choice

/-- A dispatching filter attached: what it attaches for a mode is attached on the first token. -/
def choosing (P : Producer) (sub : String → Attached P.replay) : Attached P where
  producer :=
    { State := Choice P sub
      record := Choice.record
      write := Choice.write
      advance := Choice.advance
      remaining := Choice.remaining
      record_write := by
        rintro t (s | s | ⟨mode, s⟩) <;> exact Producer.record_write _ t s
      remaining_write := by
        rintro t (s | s | ⟨mode, s⟩) <;> exact Producer.remaining_write _ t s
      remaining_advance := Choice.remaining_advance
      advance_ended := Choice.advance_ended }
  start := Choice.pending
  remaining_start _ := Nat.le_refl _

end Attached

mutual

/-- A filter attached to a producer. -/
def Filter.attach (keepForms : Bool) : Filter → (P : Producer) → Attached P
  | .dispatch d, P => .choosing P fun mode => d.attach keepForms mode P.replay
  | f, P => .working P (f.settle keepForms "")

/-- The filter for a mode attached to a producer. Where word forms are kept, a filter that changes
them is passed over. -/
def Dispatch.attach (keepForms : Bool) (mode : String) : Dispatch → (P : Producer) → Attached P
  | .otherwise f, P => if keepForms && f.isMorph then .bare P else f.attach keepForms P
  | .mode m f rest, P =>
    if m = mode then (if keepForms && f.isMorph then .bare P else f.attach keepForms P)
    else rest.attach keepForms mode P

end

/-- What is attached for a mode is the filter that is selected for it. -/
theorem Dispatch.attach_eq (keepForms : Bool) (mode : String) (P : Producer) :
    ∀ d : Dispatch, d.attach keepForms mode P =
      if keepForms && (d.select mode).isMorph then .bare P
      else (d.select mode).attach keepForms P
  | .otherwise f => rfl
  | .mode m f rest => by
    simp only [Dispatch.attach, Dispatch.select]
    split
    · rfl
    · exact attach_eq keepForms mode P rest

end TextAnalysis
