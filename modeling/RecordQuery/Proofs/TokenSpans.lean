import RecordQuery.Filter.TokenStream
import RecordQuery.Proofs.TokenOrder
import RecordQuery.Text.Utf8

/-!
# The spans of tokens

A text that is read is spaces and tokens by turns, up to its end or to the first place
where no token starts. So every byte before that belongs to one token or is a space,
and the tokens of a stream are those of the whole text: what stands behind a token has
no part in it.
-/

namespace RecordQuery

open Text
open String (utf8EncodeChar)

/-! ## Spaces -/

namespace Text

/-- Only spaces stand here. -/
def Spaces (cs : List Char) : Prop :=
  ∀ c ∈ cs, isSpace c = true

instance (cs : List Char) : Decidable (Spaces cs) :=
  decidable_of_iff (cs.all isSpace = true) List.all_eq_true

theorem spaces_nil : Spaces [] :=
  nofun

theorem spaces_cons {c : Char} {cs : List Char} :
    Spaces (c :: cs) ↔ isSpace c = true ∧ Spaces cs :=
  List.forall_mem_cons

/-- Space, tab, line feed, form feed and carriage return. -/
def spaceBytes : List UInt8 :=
  [0x20, 0x09, 0x0a, 0x0c, 0x0d]

theorem length_encodeUtf8 (cs : List Char) : (encodeUtf8 cs).length = byteLength cs := by
  induction cs with
  | nil => rfl
  | cons c cs ih =>
    show (utf8EncodeChar c ++ encodeUtf8 cs).length = _
    rw [List.length_append, String.length_utf8EncodeChar, ih, byteLength_cons]

theorem encodeUtf8_append (cs ds : List Char) :
    encodeUtf8 (cs ++ ds) = encodeUtf8 cs ++ encodeUtf8 ds :=
  List.flatMap_append

/-- A space is one byte. -/
theorem Spaces.mem_spaceBytes {cs : List Char} (h : Spaces cs) :
    ∀ b ∈ encodeUtf8 cs, b ∈ spaceBytes := by
  intro b hb
  obtain ⟨c, hc, hbyte⟩ := List.mem_flatMap.mp hb
  rcases isSpace_iff.mp (h c hc) with rfl | rfl | rfl | rfl | rfl
  all_goals
    obtain rfl := List.mem_singleton.mp hbyte
    decide

end Text

/-! ## Tokens and the spaces between them -/

namespace Lexed

/-- The text whose first character is at `position` is laid out as tokens with spaces around
them. Behind the last token it is over, or goes on with something that is not read. -/
inductive LaidOut : Nat → List Char → List Token → Option LexError → Prop where
  | ended {position : Nat} {gap : List Char} (spaces : Spaces gap) : LaidOut position gap [] none
  | stopped {position : Nat} {gap rest : List Char} {e : LexError} (spaces : Spaces gap)
      (unread : rest ≠ []) (placed : e.position = position + byteLength gap) :
      LaidOut position (gap ++ rest) [] (some e)
  | token {position : Nat} {gap rest : List Char} {t : Token} {ts : List Token}
      {failure : Option LexError} (spaces : Spaces gap)
      (placed : t.position = position + byteLength gap) (follows : LaidOut t.stop rest ts failure) :
      LaidOut position (gap ++ (t.spelling ++ rest)) (t :: ts) failure

theorem LaidOut.space {position : Nat} {c : Char} {cs : List Char} {ts : List Token}
    {failure : Option LexError} (hc : isSpace c = true)
    (h : LaidOut (position + c.utf8Size) cs ts failure) : LaidOut position (c :: cs) ts failure := by
  cases h with
  | ended spaces => exact .ended (spaces_cons.mpr ⟨hc, spaces⟩)
  | @stopped _ gap rest e spaces unread placed =>
    show LaidOut position ((c :: gap) ++ rest) [] _
    refine .stopped (spaces_cons.mpr ⟨hc, spaces⟩) unread ?_
    rw [placed, byteLength_cons, Nat.add_assoc]
  | @token _ gap rest t ts _ spaces placed follows =>
    show LaidOut position ((c :: gap) ++ (t.spelling ++ rest)) _ _
    refine .token (spaces_cons.mpr ⟨hc, spaces⟩) ?_ follows
    rw [placed, byteLength_cons, Nat.add_assoc]

/-- Every text is laid out as the tokens that it is read to. -/
theorem laidOut_ofChars (position : Nat) (cs : List Char) :
    LaidOut position cs (ofChars position cs).tokens (ofChars position cs).failure := by
  induction position, cs using ofChars.induct with
  | case1 position =>
    rw [ofChars_nil]
    exact .ended spaces_nil
  | case2 position c cs hspace ih =>
    rw [ofChars_space position cs hspace]
    exact ih.space hspace
  | case3 position c cs hspace cause hr =>
    rw [ofChars_error position hspace hr]
    show LaidOut position ([] ++ c :: cs) [] _
    exact .stopped spaces_nil (List.cons_ne_nil c cs) rfl
  | case4 position c cs hspace t hr _ token ih =>
    rw [ofChars_token position hspace hr]
    have hlaid : LaidOut position ([] ++ (token.spelling ++ t.rest)) (token :: _) _ :=
      .token spaces_nil rfl ih
    have happend : token.spelling ++ t.rest = c :: cs := LeadingToken.read_append hr
    rwa [List.nil_append, happend] at hlaid

/-- The byte up to which a text of this length has been read: that of the error, or its end. -/
def readTo (failure : Option LexError) (length : Nat) : Nat :=
  failure.elim length LexError.position

namespace LaidOut

variable {position stop : Nat} {cs : List Char} {ts : List Token} {failure : Option LexError}

theorem le_readTo (h : LaidOut position cs ts failure) (hstop : stop = position + byteLength cs) :
    position ≤ readTo failure stop := by
  induction h with
  | ended =>
    show _ ≤ stop
    omega
  | @stopped position gap rest e _ _ placed =>
    show _ ≤ e.position
    omega
  | @token position gap rest t ts failure _ placed _ ih =>
    simp only [byteLength_append] at hstop
    have hle := ih (by rw [Token.stop]; omega)
    rw [Token.stop] at hle
    omega

/-- Tokens lie between the place where the text starts and the one up to which it is read. -/
theorem bounds (h : LaidOut position cs ts failure) (hstop : stop = position + byteLength cs) :
    ∀ t ∈ ts, position ≤ t.position ∧ t.stop ≤ readTo failure stop := by
  induction h with
  | ended | stopped => exact nofun
  | @token position gap rest t ts failure _ placed follows ih =>
    simp only [byteLength_append] at hstop
    have hrest : stop = t.stop + byteLength rest := by rw [Token.stop]; omega
    refine List.forall_mem_cons.mpr ⟨⟨by omega, follows.le_readTo hrest⟩, fun u hu => ?_⟩
    obtain ⟨hposition, hread⟩ := ih hrest u hu
    rw [Token.stop] at hposition
    exact ⟨by omega, hread⟩

/-- No token starts before the one in front of it stops. -/
theorem pairwise_stop (h : LaidOut position cs ts failure) :
    ts.Pairwise fun a b => a.stop ≤ b.position := by
  induction h with
  | ended | stopped => exact .nil
  | token _ _ follows ih => exact .cons (fun u hu => (follows.bounds rfl u hu).1) ih

/-- What is not read begins with a whole character. -/
theorem exists_readTo (h : LaidOut position cs ts failure)
    (hstop : stop = position + byteLength cs) : ∃ before after, cs = before ++ after ∧
      readTo failure stop = position + byteLength before ∧ (after = [] ↔ failure = none) := by
  induction h with
  | @ended _ gap => exact ⟨gap, [], by simp, hstop, by simp⟩
  | @stopped _ gap rest e _ unread placed => exact ⟨gap, rest, rfl, placed, by simp [unread]⟩
  | @token position gap rest t ts failure _ placed _ ih =>
    simp only [byteLength_append] at hstop
    obtain ⟨before, after, rfl, hread, hafter⟩ := ih (by rw [Token.stop]; omega)
    refine ⟨gap ++ (t.spelling ++ before), after, by simp, ?_, hafter⟩
    rw [hread, Token.stop]
    simp only [byteLength_append]
    omega

/-- **A byte in no token is a space**, as far as the text is read. -/
theorem mem_spaceBytes (h : LaidOut position cs ts failure)
    (hstop : stop = position + byteLength cs) {k : Nat} {b : UInt8}
    (hb : (encodeUtf8 cs)[k]? = some b) (hread : position + k < readTo failure stop)
    (hout : ∀ t ∈ ts, position + k < t.position ∨ t.stop ≤ position + k) : b ∈ spaceBytes := by
  induction h generalizing k with
  | ended spaces => exact spaces.mem_spaceBytes b (List.mem_of_getElem? hb)
  | @stopped position gap rest e spaces _ placed =>
    have hlt : position + k < e.position := hread
    have hgap : k < (encodeUtf8 gap).length := by
      rw [length_encodeUtf8]
      omega
    rw [encodeUtf8_append, List.getElem?_append_left hgap] at hb
    exact spaces.mem_spaceBytes b (List.mem_of_getElem? hb)
  | @token position gap rest t ts failure spaces placed _ ih =>
    obtain ⟨hhere, hfollowing⟩ := List.forall_mem_cons.mp hout
    simp only [byteLength_append] at hstop
    rw [Token.stop] at hhere
    by_cases hgap : k < byteLength gap
    · rw [encodeUtf8_append, List.getElem?_append_left (by rwa [length_encodeUtf8])] at hb
      exact spaces.mem_spaceBytes b (List.mem_of_getElem? hb)
    · -- the byte is not in the token either, so it is one of what follows
      have hbehind : (encodeUtf8 gap ++ encodeUtf8 t.spelling).length ≤ k := by
        rw [List.length_append, length_encodeUtf8, length_encodeUtf8]
        omega
      rw [encodeUtf8_append, encodeUtf8_append, ← List.append_assoc,
        List.getElem?_append_right hbehind, List.length_append, length_encodeUtf8,
        length_encodeUtf8] at hb
      have hplace : t.stop + (k - (byteLength gap + byteLength t.spelling)) = position + k := by
        rw [Token.stop]
        omega
      refine ih (by rw [Token.stop]; omega) hb ?_ ?_
      · rwa [hplace]
      · rwa [hplace]

end LaidOut

/-! ## Quotes -/

/-- A token is in quotes if a quote stands where it starts. -/
theorem quoted_iff_head? {position : Nat} {cs : List Char} {t : Token}
    (h : t ∈ (ofChars position cs).tokens) :
    t.quoted = true ↔ t.spelling.head? = some '\'' := by
  obtain ⟨before, c, rest, lead, -, hlead, rfl⟩ := exists_read position cs t h
  have hfirst : lead.spelling.head? = some c := by
    have happend := LeadingToken.read_append hlead
    cases hs : lead.spelling with
    | nil => exact absurd hs (LeadingToken.read_spelling_ne_nil hlead)
    | cons d ds =>
      rw [hs] at happend
      exact congrArg some (List.cons.inj happend).1
  constructor
  · intro hquoted
    have hquoted : lead.quoted = true := hquoted
    simp [Token.spelling, hquoted]
  · intro hquote
    obtain rfl : c = '\'' := Option.some.inj (hfirst.symm.trans hquote)
    have hliteral : LeadingToken.quotedLiteral rest = .ok lead := hlead
    unfold LeadingToken.quotedLiteral at hliteral
    split at hliteral
    · cases hliteral
    · cases hliteral
      rfl

/-! ## Streams -/

/-- What is given one after the other: the tokens, and the error if there is one. -/
def answers (l : Lexed) : List (Except LexError Token) :=
  l.tokens.map .ok ++ l.failure.toList.map .error

end Lexed

namespace TokenStream

/-- A stream that has ended gives nothing more. -/
theorem answer_of_ended {s : TokenStream} (h : s.ended = true) (n : Nat) : s.answer n = none := by
  have hnext : s.next = (none, s) := by rw [next, if_pos h]
  induction n with
  | zero => rw [answer, hnext]
  | succ n ih => rw [answer, hnext, ih]

/-- The calls of two streams that go on alike give the same. -/
theorem answer_congr {s s' : TokenStream} (h : s.next = s'.next) (n : Nat) :
    s.answer n = s'.answer n := by
  cases n with
  | zero => rw [answer, answer, h]
  | succ n => rw [answer, answer, h]

variable {c : Char} {cs : List Char}

theorem next_space (position : Nat) (h : isSpace c = true) :
    next ⟨position, c :: cs, false⟩ = next ⟨position + c.utf8Size, cs, false⟩ := by
  have hskip : skipSpace ⟨position, c :: cs, false⟩ =
      skipSpace ⟨position + c.utf8Size, cs, false⟩ := by
    simp [skipSpace, h, Nat.add_assoc]
  simp only [next, hskip, Bool.false_eq_true, if_false]

theorem skipSpace_cons (position : Nat) (h : ¬ isSpace c = true) :
    skipSpace ⟨position, c :: cs, false⟩ = ⟨position, c :: cs, false⟩ := by
  simp [skipSpace, h]

theorem next_error {cause : LexCause} (position : Nat) (h : ¬ isSpace c = true)
    (hr : LeadingToken.read c cs = .error cause) :
    next ⟨position, c :: cs, false⟩ =
      (some (.error ⟨position, cause⟩), ⟨position, c :: cs, true⟩) := by
  simp [next, skipSpace_cons position h, hr]

theorem next_token {t : LeadingToken} (position : Nat) (h : ¬ isSpace c = true)
    (hr : LeadingToken.read c cs = .ok t) :
    next ⟨position, c :: cs, false⟩ =
      let token : Token := ⟨t.kind, t.lexeme, t.quoted, position⟩
      (some (.ok token), ⟨token.stop, t.rest, false⟩) := by
  simp [next, skipSpace_cons position h, hr]

/-- A stream gives the tokens of its text, then the error if there is one, then nothing. -/
theorem answer_eq (position : Nat) (cs : List Char) (n : Nat) :
    answer ⟨position, cs, false⟩ n = (Lexed.ofChars position cs).answers[n]? := by
  induction position, cs using Lexed.ofChars.induct generalizing n with
  | case1 position =>
    rw [Lexed.ofChars_nil]
    cases n with
    | zero => rfl
    | succ n => exact answer_of_ended rfl n
  | case2 position c cs hspace ih =>
    rw [Lexed.ofChars_space position cs hspace, answer_congr (next_space position hspace), ih]
  | case3 position c cs hspace cause hr =>
    rw [Lexed.ofChars_error position hspace hr]
    cases n with
    | zero =>
      rw [answer, next_error position hspace hr]
      rfl
    | succ n =>
      rw [answer, next_error position hspace hr, answer_of_ended rfl]
      rfl
  | case4 position c cs hspace t hr _ token ih =>
    rw [Lexed.ofChars_token position hspace hr]
    cases n with
    | zero =>
      rw [answer, next_token position hspace hr]
      rfl
    | succ n =>
      rw [answer, next_token position hspace hr]
      exact ih n

end TokenStream

/-- The tokens account for the text, as far as it is read. -/
structure Lexed.Accounts (l : Lexed) (text : List Char) : Prop where
  increasing : l.tokens.Pairwise fun a b => a.position < b.position
  apart : l.tokens.Pairwise fun a b => a.stop ≤ b.position
  /-- A token takes up its spelling in the text, from one whole character to another. -/
  span : ∀ t ∈ l.tokens, ∃ before after, text = before ++ t.spelling ++ after ∧
    t.position = byteLength before ∧ t.stop = byteLength (before ++ t.spelling)
  /-- There are quotes around the lexeme if, and only if, the token starts with one. -/
  quotes : ∀ t ∈ l.tokens, t.quoted = true ↔ t.spelling.head? = some '\''
  within : ∀ t ∈ l.tokens, t.stop ≤ readTo l.failure (byteLength text)
  /-- Reading stops in front of a whole character, or at the end if there is no error. -/
  stops : ∃ before after, text = before ++ after ∧
    readTo l.failure (byteLength text) = byteLength before ∧ (after = [] ↔ l.failure = none)
  /-- All other bytes are spaces. -/
  gaps : ∀ k b, (encodeUtf8 text)[k]? = some b → k < readTo l.failure (byteLength text) →
    (∀ t ∈ l.tokens, k < t.position ∨ t.stop ≤ k) → b ∈ spaceBytes

theorem Lexed.accounts_ofChars (cs : List Char) : (ofChars 0 cs).Accounts cs := by
  have hlaid := laidOut_ofChars 0 cs
  have hstop : byteLength cs = 0 + byteLength cs := (Nat.zero_add _).symm
  exact {
    increasing := pairwise_position 0 cs
    apart := hlaid.pairwise_stop
    span := by
      intro t ht
      obtain ⟨before, after, hcs, hposition⟩ := exists_append_spelling ht
      rw [Nat.zero_add] at hposition
      exact ⟨before, after, hcs, hposition, by rw [Token.stop, hposition, byteLength_append]⟩
    quotes := fun t ht => quoted_iff_head? ht
    within := fun t ht => (hlaid.bounds hstop t ht).2
    stops := by
      obtain ⟨before, after, hcs, hread, hafter⟩ := hlaid.exists_readTo hstop
      exact ⟨before, after, hcs, hread.trans (Nat.zero_add _), hafter⟩
    gaps := by
      intro k b hb hread hout
      exact hlaid.mem_spaceBytes hstop hb (by rwa [Nat.zero_add]) (by simpa using hout) }

/-- **Reading loses and invents nothing**: call by call, a stream gives the tokens that account
for its text up to the end or to an error, then that error, and then nothing any more. All
tokens at once are these, or the error. -/
theorem TokenStream.answers_account (text : String) :
    let l := Lexed.ofText text
    (∀ n, (ofText text).answer n = l.answers[n]?) ∧
      tokenize text = (match l.failure with
        | none => .ok l.tokens
        | some e => .error e) ∧
      l.Accounts text.toList :=
  ⟨answer_eq 0 text.toList, rfl, Lexed.accounts_ofChars text.toList⟩

end RecordQuery
