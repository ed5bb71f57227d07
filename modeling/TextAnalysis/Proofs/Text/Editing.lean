import TextAnalysis.CharMap
import TextAnalysis.Proofs.CharMap.Reading
import TextAnalysis.Proofs.Text.Decoding
import TextAnalysis.Proofs.Text.Trimming
import TextAnalysis.Unicode.Case

/-!
# Editing texts in place

A text is kept as its bytes, and editing it in place cuts these bytes off at either end, changes them
one by one, or writes new ones into a buffer that takes their place. What can go wrong has its own
outcome (`EditFault`): a cut inside a character, a length that is less than what is taken from it,
and bytes that are no text any more. None of these happens to white space around a text, to lower
case and to the replacement of characters, and what comes out are the bytes of the text that each of
them is about (`strip_encode`, `lowercase_encode`, `translate_encode`).
-/

set_option autoImplicit false

namespace TextAnalysis.Text

open String (utf8EncodeChar)
open Unicode (isWhite lowercaseAscii)

/-- Why bytes cannot be edited. -/
inductive EditFault where
  /-- They are no text. -/
  | notText (f : Utf8Fault)
  /-- The place to cut at stands inside a character or behind the end. -/
  | noBoundary (place : Nat)
  /-- More is to be taken from a number than it has. -/
  | underflow
  deriving DecidableEq, Repr

namespace Buffer

/-! ## Bytes -/

/-- The bytes of characters. -/
def encode (cs : List Char) : List UInt8 := cs.flatMap utf8EncodeChar

/-- The characters of bytes. -/
def view (b : List UInt8) : Except EditFault (List Char) := (decodeFrom 0 b).mapError .notText

/-- May the bytes be cut at the place? It is the start, the end, or stands in front of a byte that
does not continue a character. -/
def isBoundary (b : List UInt8) (place : Nat) : Bool :=
  place == 0 ||
    match b[place]? with
    | some x => !isContinuation x
    | none => place == b.length

/-- Cuts off what stands behind a place. -/
def truncate (b : List UInt8) (place : Nat) : Except EditFault (List UInt8) :=
  if b.length < place then .ok b
  else if isBoundary b place then .ok (b.take place)
  else .error (.noBoundary place)

/-- Takes away what stands in front of a place. -/
def drain (b : List UInt8) (place : Nat) : Except EditFault (List UInt8) :=
  if isBoundary b place then .ok (b.drop place) else .error (.noBoundary place)

/-- What is left of a length. -/
def subtract (length taken : Nat) : Except EditFault Nat :=
  if taken ≤ length then .ok (length - taken) else .error .underflow

/-- Texts are encoded one behind the other. -/
@[simp]
theorem encode_append (cs ds : List Char) : encode (cs ++ ds) = encode cs ++ encode ds :=
  List.flatMap_append

/-- A text is encoded character by character. -/
theorem encode_cons (c : Char) (cs : List Char) : encode (c :: cs) = utf8EncodeChar c ++ encode cs :=
  List.flatMap_cons

/-- What a text encodes to is viewed as the text. -/
theorem view_encode (cs : List Char) : view (encode cs) = .ok cs := by
  rw [view, encode, decodeFrom_encode]
  rfl

/-- The first byte of a character continues none, and the others do. -/
theorem exists_encode_eq_cons (c : Char) :
    ∃ x rest, utf8EncodeChar c = x :: rest ∧ isContinuation x = false ∧
      ∀ y ∈ rest, isContinuation y = true := by
  have hfirst {x : UInt8} (h : x.toNat < 128 ∨ 191 < x.toNat) : isContinuation x = false := by
    rw [Bool.eq_false_iff, Ne, isContinuation_iff]
    omega
  have hspells := spells_encode c
  generalize utf8EncodeChar c = bytes at hspells
  cases hspells with
  | one ha => exact ⟨_, _, rfl, hfirst (.inl ha), by simp⟩
  | two ha hb => exact ⟨_, _, rfl, hfirst (.inr (by omega)), by simpa using hb⟩
  | @three a b c ha hb hc =>
    rw [isSecondOfThree_iff] at hb
    have hsecond : isContinuation b = true := (isContinuation_iff b).mpr ⟨hb.1, hb.2.1⟩
    exact ⟨_, _, rfl, hfirst (.inr (by omega)), by simp [hsecond, hc]⟩
  | @four a b c d ha hb hc hd =>
    rw [isSecondOfFour_iff] at hb
    have hsecond : isContinuation b = true := (isContinuation_iff b).mpr ⟨hb.1, hb.2.1⟩
    exact ⟨_, _, rfl, hfirst (.inr (by omega)), by simp [hsecond, hc, hd]⟩

/-- What stands in front of a text does not matter behind its start. -/
theorem isBoundary_of_append {b b' : List UInt8} {place : Nat}
    (h : isBoundary (b ++ b') (b.length + place) = true) : isBoundary b' place = true := by
  have hbyte : (b ++ b')[b.length + place]? = b'[place]? := by
    rw [List.getElem?_append_right (Nat.le_add_right _ _), Nat.add_sub_cancel_left]
  rw [isBoundary, hbyte, Bool.or_eq_true, beq_iff_eq] at h
  rw [isBoundary, Bool.or_eq_true, beq_iff_eq]
  refine h.imp (fun hzero => by omega) fun h => ?_
  cases hplace : b'[place]? with
  | none =>
    rw [hplace] at h
    simpa using h
  | some y =>
    rw [hplace] at h
    exact h

/-- Inside a character there is no place to cut. -/
theorem isBoundary_inside {c : Char} {place : Nat} (hpos : 0 < place)
    (hplace : place < (utf8EncodeChar c).length) (b : List UInt8) :
    isBoundary (utf8EncodeChar c ++ b) place = false := by
  obtain ⟨x, rest, hc, -, hrest⟩ := exists_encode_eq_cons c
  obtain ⟨k, rfl⟩ := Nat.exists_eq_add_one_of_ne_zero (Nat.ne_of_gt hpos)
  have hk : k < rest.length := by simpa [hc] using hplace
  have hbyte : (utf8EncodeChar c ++ b)[k + 1]? = some rest[k] := by
    rw [List.getElem?_append_left hplace, hc, List.getElem?_cons_succ, List.getElem?_eq_getElem hk]
  rw [isBoundary, hbyte]
  simp [hrest _ (List.getElem_mem hk)]

/-- A text may be cut between two of its characters, and nowhere else. -/
theorem isBoundary_encode_iff {cs : List Char} {place : Nat} :
    isBoundary (encode cs) place = true ↔
      ∃ front back, cs = front ++ back ∧ place = (encode front).length := by
  constructor
  · intro h
    induction cs generalizing place with
    | nil =>
      have hplace : place = 0 := by simpa [isBoundary, encode] using h
      exact ⟨[], [], rfl, hplace⟩
    | cons c cs ih =>
      rcases Nat.eq_zero_or_pos place with rfl | hpos
      · exact ⟨[], c :: cs, rfl, rfl⟩
      rw [encode_cons] at h
      by_cases hplace : place < (utf8EncodeChar c).length
      · rw [isBoundary_inside hpos hplace] at h
        cases h
      · obtain ⟨j, rfl⟩ := Nat.exists_eq_add_of_le (Nat.le_of_not_lt hplace)
        obtain ⟨front, back, rfl, rfl⟩ := ih (isBoundary_of_append h)
        exact ⟨c :: front, back, rfl, by rw [encode_cons, List.length_append]⟩
  · rintro ⟨front, back, rfl, rfl⟩
    rw [isBoundary, encode_append]
    cases back with
    | nil => simp [encode]
    | cons c back =>
      obtain ⟨x, rest, hc, hx, -⟩ := exists_encode_eq_cons c
      have hbyte : (encode front ++ encode (c :: back))[(encode front).length]? = some x := by
        rw [List.getElem?_append_right (Nat.le_refl _), Nat.sub_self, encode_cons, hc]
        rfl
      rw [hbyte]
      simp [hx]

/-- Where a part of a text ends, a character does. -/
theorem isBoundary_encode (front back : List Char) :
    isBoundary (encode (front ++ back)) (encode front).length = true :=
  isBoundary_encode_iff.mpr ⟨front, back, rfl, rfl⟩

/-- Truncating behind a part leaves this part. -/
theorem truncate_encode (front back : List Char) :
    truncate (encode (front ++ back)) (encode front).length = .ok (encode front) := by
  rw [truncate, if_neg (by simp), if_pos (isBoundary_encode front back), encode_append,
    List.take_left]

/-- Draining a part leaves the rest. -/
theorem drain_encode (front back : List Char) :
    drain (encode (front ++ back)) (encode front).length = .ok (encode back) := by
  rw [drain, if_pos (isBoundary_encode front back), encode_append, List.drop_left]

/-! ## White space around a text -/

/-- Takes white space off both ends of a text: first behind it, then in front of what is left. -/
def strip (b : List UInt8) : Except EditFault (List UInt8) := do
  let stop := (encode ((← view b).rdropWhile isWhite)).length
  let b ← truncate b stop
  let start ← subtract stop (encode ((← view b).dropWhile isWhite)).length
  drain b start

/-- Trimming may begin at either end. -/
theorem dropWhile_rdropWhile (cs : List Char) :
    (cs.rdropWhile isWhite).dropWhile isWhite = trim cs := by
  refine Trims.eq_trim ⟨⟨(cs.rdropWhile isWhite).takeWhile isWhite, cs.rtakeWhile isWhite, ?_,
    fun c hc => List.mem_takeWhile_imp hc, fun c hc => List.mem_rtakeWhile_imp hc⟩, ?_, ?_⟩
  · rw [List.takeWhile_append_dropWhile, List.rdropWhile_append_rtakeWhile]
  · intro c hc
    have hhead := List.head?_dropWhile_not isWhite (cs.rdropWhile isWhite)
    rw [hc] at hhead
    simpa using hhead
  · intro c hc
    obtain ⟨front, hfront⟩ := List.dropWhile_suffix isWhite (l := cs.rdropWhile isWhite)
    have hlast : c ∈ (cs.rdropWhile isWhite).getLast? := by
      rw [← hfront, List.getLast?_append, hc]
      rfl
    obtain ⟨hne, rfl⟩ := List.mem_getLast?_eq_getLast hlast
    exact Bool.eq_false_iff.mpr (List.rdropWhile_last_not isWhite cs hne)

/-- Stripping a text in place leaves the bytes of the trimmed text. Both cuts stand between two
characters, and what is left in front of the first of them is at least as long as what is left
behind the second. -/
theorem strip_encode (cs : List Char) : strip (encode cs) = .ok (encode (trim cs)) := by
  have hback : cs.rdropWhile isWhite ++ cs.rtakeWhile isWhite = cs :=
    List.rdropWhile_append_rtakeWhile
  have hfront : (cs.rdropWhile isWhite).takeWhile isWhite ++ trim cs = cs.rdropWhile isWhite := by
    rw [← dropWhile_rdropWhile, List.takeWhile_append_dropWhile]
  have htruncate : truncate (encode cs) (encode (cs.rdropWhile isWhite)).length =
      .ok (encode (cs.rdropWhile isWhite)) := by
    have hcut := truncate_encode (cs.rdropWhile isWhite) (cs.rtakeWhile isWhite)
    rwa [hback] at hcut
  have hsubtract : subtract (encode (cs.rdropWhile isWhite)).length (encode (trim cs)).length =
      .ok (encode ((cs.rdropWhile isWhite).takeWhile isWhite)).length := by
    have hlength := congrArg (fun ds => (encode ds).length) hfront
    simp only [encode_append, List.length_append] at hlength
    rw [subtract, if_pos (by omega)]
    congr 1
    omega
  have hdrain : drain (encode (cs.rdropWhile isWhite))
      (encode ((cs.rdropWhile isWhite).takeWhile isWhite)).length = .ok (encode (trim cs)) := by
    have hcut := drain_encode ((cs.rdropWhile isWhite).takeWhile isWhite) (trim cs)
    rwa [hfront] at hcut
  rw [strip, view_encode]
  change (truncate _ _ >>= fun b => view b >>= fun ds => subtract _ _ >>= fun start => _) = _
  rw [htruncate]
  change (view _ >>= fun ds => subtract _ _ >>= fun start => _) = _
  rw [view_encode]
  change (subtract _ (encode ((cs.rdropWhile isWhite).dropWhile isWhite)).length >>= _) = _
  rw [dropWhile_rdropWhile, hsubtract]
  exact hdrain

/-! ## Lower case -/

/-- The lower case of a byte that stands for a capital letter. -/
def lowercaseByte (x : UInt8) : UInt8 := if 0x41 ≤ x && x ≤ 0x5A then x + 0x20 else x

/-- Turns a text into lower case: byte by byte where all of them stand for themselves, and by writing
the text anew where not. -/
def lowercase (b : List UInt8) : Except EditFault (List UInt8) :=
  if b.all (· < 0x80) then .ok (b.map lowercaseByte)
  else do
    let cs ← view b
    return encode (Unicode.lowercase cs)

/-- A character all of whose bytes stand for themselves is one of the first. -/
theorem toNat_lt_of_encode {c : Char} (h : ∀ x ∈ utf8EncodeChar c, x < 0x80) : c.toNat < 128 := by
  have hspells := spells_encode c
  have hfirst {x : UInt8} (hx : x < 0x80) : x.toNat < 128 := UInt8.lt_iff_toNat_lt.mp hx
  generalize utf8EncodeChar c = bytes at h hspells
  cases hspells with
  | @one a ha =>
    have hval : (Char.ofNat a.toNat).toNat = a.toNat := val_ofNat (by omega)
    rwa [hval]
  | @two a b ha => exact absurd (hfirst (h a (by simp))) (by omega)
  | @three a b c ha => exact absurd (hfirst (h a (by simp))) (by omega)
  | @four a b c d ha => exact absurd (hfirst (h a (by simp))) (by omega)

/-- ASCII letters are lowered wherever they stand. -/
theorem lowercaseAt_of_lt {c : Char} (hc : c.toNat < 128) (before after : List Char) :
    Unicode.lowercaseAt before c after = [lowercaseAscii c] := by
  have hsigma : c ≠ 'Σ' := fun h => absurd hc (by rw [h]; decide)
  have hdotted : c ≠ 'İ' := fun h => absurd hc (by rw [h]; decide)
  have hsame : Unicode.lowercaseChar c = lowercaseAscii c :=
    CharMap.forall_ascii (P := fun c => Unicode.lowercaseChar c = lowercaseAscii c) (by decide) hc
  rw [Unicode.lowercaseAt, if_neg hsigma, if_neg hdotted, hsame]

/-- Among the first characters, none has an influence on the lower case of another. -/
theorem lowercase_of_lt {cs : List Char} (hcs : ∀ c ∈ cs, c.toNat < 128) :
    Unicode.lowercase cs = cs.map lowercaseAscii := by
  have hafter : ∀ before, Unicode.lowercaseAfter before cs = cs.map lowercaseAscii := by
    induction cs with
    | nil => exact fun _ => rfl
    | cons c rest ih =>
      intro before
      rw [Unicode.lowercaseAfter, lowercaseAt_of_lt (hcs c List.mem_cons_self),
        ih (fun d hd => hcs d (List.mem_cons_of_mem c hd))]
      rfl
  exact hafter []

/-- Lowering an ASCII character is lowering its byte. -/
theorem encode_lowercaseAscii {c : Char} (hc : c.toNat < 128) :
    utf8EncodeChar (lowercaseAscii c) = (utf8EncodeChar c).map lowercaseByte :=
  CharMap.forall_ascii
    (P := fun c => utf8EncodeChar (lowercaseAscii c) = (utf8EncodeChar c).map lowercaseByte)
    (by decide) hc

/-- Both ways lead to the bytes of the text in lower case. -/
theorem lowercase_encode (cs : List Char) :
    lowercase (encode cs) = .ok (encode (Unicode.lowercase cs)) := by
  rw [lowercase]
  split
  · next hall =>
    have hcs : ∀ c ∈ cs, c.toNat < 128 := by
      intro c hc
      refine toNat_lt_of_encode fun x hx => ?_
      have hmem : x ∈ encode cs := List.mem_flatMap.mpr ⟨c, hc, hx⟩
      simpa using List.all_eq_true.mp hall x hmem
    rw [lowercase_of_lt hcs, encode, encode, List.map_flatMap, List.flatMap_map]
    congr 1
    exact List.flatMap_congr fun c hc => (encode_lowercaseAscii (hcs c hc)).symm
  · rw [view_encode]
    rfl

/-! ## Replaced characters -/

/-- Appends what a character becomes; false where it is a break. -/
def translateInto (m : CharMap) (c : Char) (out : List UInt8) : Bool × List UInt8 :=
  match m.get? c with
  | some image => if image.isEmpty then (false, out) else (true, out ++ encode image.toList)
  | none =>
    match m.unmapped with
    | .keep => (true, out ++ encode [c])
    | .split => (false, out)

/-- Writes the text with its characters replaced into a buffer, which is emptied first, and exchanges
the two. -/
def translate (m : CharMap) (b scratch : List UInt8) :
    Except EditFault (List UInt8 × List UInt8) := do
  let out := scratch.take 0
  let out := (← view b).foldl (fun out c => (translateInto m c out).2) out
  return (out, b)

/-- A character is translated to what the map has in its place. -/
theorem translateInto_eq (m : CharMap) (c : Char) (out : List UInt8) :
    translateInto m c out = ((m.replace? c).isSome, out ++ encode ((m.replace? c).getD [])) := by
  unfold translateInto CharMap.replace?
  cases m.get? c with
  | some image =>
    dsimp only
    cases image.isEmpty with
    | true => simp [encode]
    | false => simp
  | none =>
    cases m.unmapped with
    | keep => simp
    | split => simp [encode]

/-- Translating character by character is applying the map. -/
theorem foldl_translateInto (m : CharMap) (cs : List Char) (out : List UInt8) :
    cs.foldl (fun out c => (translateInto m c out).2) out = out ++ encode (m.applyChars cs) := by
  induction cs generalizing out with
  | nil => simp [CharMap.applyChars, encode]
  | cons c cs ih =>
    rw [List.foldl_cons, ih, translateInto_eq]
    simp [CharMap.applyChars]

/-- What the buffer held does not show. -/
theorem translate_encode (m : CharMap) (cs : List Char) (scratch : List UInt8) :
    translate m (encode cs) scratch = .ok (encode (m.applyChars cs), encode cs) := by
  rw [translate, view_encode]
  change Except.ok (cs.foldl _ (scratch.take 0), encode cs) = _
  rw [foldl_translateInto, List.take_zero, List.nil_append]

end Buffer

end TextAnalysis.Text
