import MiniScheme.Proofs.Token.Boundary
import MiniScheme.Proofs.Token.Munch

/-!
# Literals are decoded as their patterns match them

A string literal is matched by a pattern and then decoded by a loop that looks for the closing quote
once more. Here the literals are written out in pieces, characters and escapes, without the pattern
and without the loop; the pattern matches just what is written so (`mem_stringTail_iff`), and the
loop is right on each piece, so the two end at the same quote. Character literals are told by their
text, every number literal has a value, and what no pattern matches is one character.
-/
namespace MiniScheme

open Lexeme (Longest declared)

/-- What a string literal is made of between its quotes: characters that stand for themselves, and
backslashes with the character after them. -/
inductive Piece where
  | plain (c : Char)
  | escape (c : Char)

namespace Piece

/-- The characters that may follow a backslash, with what they stand for there. -/
def escapes : List (Char × Char) :=
  [('n', '\n'), ('r', '\r'), ('t', '\t'), ('\\', '\\'), ('"', '"')]

def text : Piece → List Char
  | plain c => [c]
  | escape c => ['\\', c]

/-- A quote or a backslash does not stand for itself, and no newline is escaped. -/
def Fits : Piece → Prop
  | plain c => c ≠ '"' ∧ c ≠ '\\'
  | escape c => c ≠ '\n'

/-- The character that the piece stands for, if there is one. -/
def value? : Piece → Option Char
  | plain c => some c
  | escape c => escapes.lookup c

/-- The pieces one after another, and the closing quote if there is one. -/
def join (pieces : List Piece) (closed : Bool) : List Char :=
  pieces.flatMap text ++ if closed then ['"'] else []

/-- The first of the pieces that stands for nothing is `c` escaped. -/
def FirstUnknown (pieces : List Piece) (c : Char) : Prop :=
  ∃ front back, pieces = front ++ escape c :: back ∧ (∀ piece ∈ front, piece.value?.isSome) ∧
    (escape c).value? = none

end Piece

/-- The text is that of a string literal with these pieces. -/
structure SpellsString (text : List Char) (pieces : List Piece) (closed : Bool) : Prop where
  fits : ∀ piece ∈ pieces, piece.Fits
  spelled : text = '"' :: Piece.join pieces closed

/-- What a string literal with these pieces yields: the string of what they stand for if it is
closed, or the first unknown escape, or else the missing quote. -/
structure YieldsString (pieces : List Piece) (closed : Bool)
    (yielded : Except LexicalFault Token.Kind) : Prop where
  value : ∀ v, yielded = .ok (.atom (.string v)) ↔
    closed = true ∧ pieces.mapM Piece.value? = some v.toList
  unknown : ∀ c, yielded = .error (.unknownEscape c) ↔ Piece.FirstUnknown pieces c
  unterminated : yielded = .error .unterminatedString ↔
    closed = false ∧ ∀ piece ∈ pieces, piece.value?.isSome

/-- What a character literal yields, by what follows its two marks: the character that stands there
alone or is named there, or else the fault with the whole text. -/
structure YieldsCharacter (text : List Char)
    (yielded : Except LexicalFault Token.Kind) : Prop where
  value : ∀ c, yielded = .ok (.atom (.character c)) ↔
    text.drop 2 = [c] ∨ (String.ofList (text.drop 2), c) ∈ Atom.characterNames
  invalid : yielded = .error (.invalidCharacter (String.ofList text)) ↔
    ∀ c, ¬ (text.drop 2 = [c] ∨ (String.ofList (text.drop 2), c) ∈ Atom.characterNames)

/-- What an item says, wherever it stands. -/
def Item.yielded : Item → Except LexicalFault Token.Kind
  | .ok t => .ok t.kind
  | .error e => .error e.fault

/-! ## Strings -/

theorem map_eq_ok_iff {α β ε : Type} {f : α → β} {x : Except ε α} {b : β} :
    x.map f = .ok b ↔ ∃ a, x = .ok a ∧ f a = b := by
  cases x <;> simp [Except.map]

theorem map_eq_error_iff {α β ε : Type} {f : α → β} {x : Except ε α} {e : ε} :
    x.map f = .error e ↔ x = .error e := by
  cases x <;> simp [Except.map]

namespace Piece

/-- What may follow the opening quote of a string is pieces with or without a closing quote. -/
theorem mem_stringTail_iff {text : List Char} :
    text ∈ Pattern.stringTail.language ↔
      ∃ pieces closed, (∀ piece ∈ pieces, Fits piece) ∧ text = join pieces closed := by
  constructor
  · intro matched
    induction length : text.length using Nat.strongRecOn generalizing text with
    | _ n ih =>
      obtain (rfl | rfl) | ⟨c, rest, plain, more, rfl⟩ | ⟨c, rest, escaped, more, rfl⟩ :=
        Pattern.mem_stringTail.mp matched
      · exact ⟨[], true, by simp, rfl⟩
      · exact ⟨[], false, by simp, rfl⟩
      · obtain ⟨pieces, closed, fits, rfl⟩ := ih _ (by simp [← length]) more rfl
        exact ⟨.plain c :: pieces, closed, List.forall_mem_cons.mpr ⟨plain, fits⟩, rfl⟩
      · obtain ⟨pieces, closed, fits, rfl⟩ := ih _ (by simp [← length]) more rfl
        exact ⟨.escape c :: pieces, closed, List.forall_mem_cons.mpr ⟨escaped, fits⟩, rfl⟩
  · rintro ⟨pieces, closed, fits, rfl⟩
    induction pieces with
    | nil =>
      refine Pattern.mem_stringTail.mpr (.inl ?_)
      cases closed
      · exact .inr rfl
      · exact .inl rfl
    | cons piece pieces ih =>
      obtain ⟨first, later⟩ := List.forall_mem_cons.mp fits
      cases piece with
      | plain c => exact Pattern.mem_stringTail.mpr (.inr (.inl ⟨c, _, first, ih later, rfl⟩))
      | escape c => exact Pattern.mem_stringTail.mpr (.inr (.inr ⟨c, _, first, ih later, rfl⟩))

theorem escaped?_eq (c : Char) : Literal.escaped? c = (escape c).value? := by
  unfold Literal.escaped? value? escapes
  split
  case h_6 n r t backslash quote =>
    simp [List.lookup, beq_eq_false_iff_ne.mpr n, beq_eq_false_iff_ne.mpr r,
      beq_eq_false_iff_ne.mpr t, beq_eq_false_iff_ne.mpr backslash, beq_eq_false_iff_ne.mpr quote]
  all_goals rfl

variable {piece : Piece} {pieces : List Piece} {closed : Bool} {c : Char}

/-- A piece that stands for something is decoded to that, and then what follows it. -/
theorem unescape_known {d : Char} (fits : piece.Fits) (known : piece.value? = some d)
    (cs : List Char) :
    Literal.unescape (piece.text ++ cs) = (Literal.unescape cs).map (d :: ·) := by
  cases piece with
  | plain c =>
    cases known
    change Literal.unescape (d :: cs) = _
    rw [Literal.unescape]
    · exact fits.1
    · exact fun same _ => fits.2 same
    · exact fun _ _ same _ => fits.2 same
  | escape c =>
    change Literal.unescape ('\\' :: c :: cs) = _
    rw [Literal.unescape, escaped?_eq, known]

theorem unescape_unknown (unknown : (escape c).value? = none) (cs : List Char) :
    Literal.unescape ((escape c).text ++ cs) = .error (.unknownEscape c) := by
  change Literal.unescape ('\\' :: c :: cs) = _
  rw [Literal.unescape, escaped?_eq, unknown]

/-- A piece stands for something, or it is an unknown escape. -/
theorem value?_cases (piece : Piece) :
    (∃ d, piece.value? = some d) ∨ ∃ c, piece = escape c ∧ (escape c).value? = none := by
  cases value : piece.value? with
  | some d => exact .inl ⟨d, rfl⟩
  | none =>
    cases piece with
    | plain c => cases value
    | escape c => exact .inr ⟨c, rfl, value⟩

theorem firstUnknown_cons {d : Char} (known : piece.value? = some d) :
    FirstUnknown (piece :: pieces) c ↔ FirstUnknown pieces c := by
  constructor
  · rintro ⟨front, back, split, knowns, unknown⟩
    cases front with
    | nil =>
      cases split
      rw [known] at unknown
      cases unknown
    | cons first front =>
      cases split
      exact ⟨front, back, rfl, (List.forall_mem_cons.mp knowns).2, unknown⟩
  · rintro ⟨front, back, rfl, knowns, unknown⟩
    exact ⟨piece :: front, back, rfl,
      List.forall_mem_cons.mpr ⟨Option.isSome_of_eq_some known, knowns⟩, unknown⟩

theorem firstUnknown_here {d : Char} (unknown : (escape d).value? = none) :
    FirstUnknown (escape d :: pieces) c ↔ d = c := by
  constructor
  · rintro ⟨front, back, split, knowns, -⟩
    cases front with
    | nil =>
      cases split
      rfl
    | cons first front =>
      cases split
      have some := knowns _ List.mem_cons_self
      rw [unknown] at some
      cases some
  · rintro rfl
    exact ⟨[], pieces, rfl, by simp, unknown⟩

/-- Decoding pieces one after another: what they stand for up to the closing quote, or the first
fault. -/
theorem unescape_join (fits : ∀ piece ∈ pieces, piece.Fits) :
    (∀ vs, Literal.unescape (join pieces closed) = .ok vs ↔
        closed = true ∧ pieces.mapM value? = some vs) ∧
      (∀ c, Literal.unescape (join pieces closed) = .error (.unknownEscape c) ↔
        FirstUnknown pieces c) ∧
      (Literal.unescape (join pieces closed) = .error .unterminatedString ↔
        closed = false ∧ ∀ piece ∈ pieces, piece.value?.isSome) := by
  induction pieces with
  | nil =>
    have known (c : Char) : ¬ FirstUnknown [] c := by
      rintro ⟨front, back, split, -⟩
      simp at split
    cases closed
    · simp [join, Literal.unescape, known]
    · simp [join, Literal.unescape, known]
  | cons piece pieces ih =>
    obtain ⟨first, later⟩ := List.forall_mem_cons.mp fits
    obtain ⟨value, unknown, unterminated⟩ := ih later
    have split : join (piece :: pieces) closed = piece.text ++ join pieces closed := by
      rw [join, List.flatMap_cons, List.append_assoc]
      rfl
    rw [split]
    obtain ⟨d, known⟩ | ⟨d, rfl, missing⟩ := value?_cases piece
    · rw [unescape_known first known]
      refine ⟨fun vs => ?_, fun c => ?_, ?_⟩
      · rw [map_eq_ok_iff]
        simp only [value, List.mapM_cons, known, Option.bind_eq_bind, Option.bind_some,
          Option.bind_eq_some_iff, Option.pure_def, Option.some.injEq, and_assoc,
          exists_and_left]
      · rw [map_eq_error_iff, unknown, firstUnknown_cons known]
      · rw [map_eq_error_iff, unterminated, List.forall_mem_cons, known]
        simp
    · rw [unescape_unknown missing]
      refine ⟨fun vs => ?_, fun c => ?_, ?_⟩
      · simp [missing]
      · rw [firstUnknown_here missing]
        simp
      · simp [missing]

theorem yieldsString_decode (fits : ∀ piece ∈ pieces, piece.Fits) :
    YieldsString pieces closed (Literal.decode .string ('"' :: join pieces closed)) := by
  obtain ⟨value, unknown, unterminated⟩ := @unescape_join pieces closed fits
  rw [Literal.decode, List.drop_succ_cons, List.drop_zero]
  refine ⟨fun v => ?_, fun c => ?_, ?_⟩
  · simp only [map_eq_ok_iff, value, Token.Kind.atom.injEq, Atom.string.injEq]
    constructor
    · rintro ⟨vs, ⟨quote, values⟩, rfl⟩
      exact ⟨quote, by rw [values, String.toList_ofList]⟩
    · rintro ⟨quote, values⟩
      exact ⟨v.toList, ⟨quote, values⟩, String.ofList_toList⟩
  · rw [map_eq_error_iff, unknown]
  · rw [map_eq_error_iff, unterminated]

end Piece

/-! ## Characters and numbers -/

theorem characterNamed?_eq_some_iff {name : String} {c : Char} :
    Atom.characterNamed? name = some c ↔ (name, c) ∈ Atom.characterNames := by
  unfold Atom.characterNamed?
  rw [Option.map_eq_some_iff]
  constructor
  · rintro ⟨entry, found, rfl⟩
    have key := List.find?_some found
    rw [beq_iff_eq] at key
    subst key
    exact List.mem_of_find?_eq_some found
  · intro member
    simp only [Atom.characterNames, List.mem_cons, Prod.mk.injEq, List.not_mem_nil,
      or_false] at member
    obtain ⟨rfl, rfl⟩ | ⟨rfl, rfl⟩ | ⟨rfl, rfl⟩ | ⟨rfl, rfl⟩ | ⟨rfl, rfl⟩ := member
    all_goals exact ⟨_, rfl, rfl⟩

/-- A character literal has a value if its body is one character or a name. -/
theorem character_eq_ok_iff {text : List Char} {c : Char} :
    Literal.character text = .ok c ↔
      text.drop 2 = [c] ∨ (String.ofList (text.drop 2), c) ∈ Atom.characterNames := by
  rw [← characterNamed?_eq_some_iff, Literal.character]
  generalize text.drop 2 = body
  cases named : Atom.characterNamed? (String.ofList body) with
  | some d =>
    have longer : body ≠ [c] := by
      rintro rfl
      rw [Lexeme.characterNamed?_single] at named
      cases named
    simp [longer]
  | none =>
    dsimp only
    split
    · simp
    · next other =>
      have longer : body ≠ [c] := other c
      simp [longer]

theorem character_eq_error_iff {text : List Char} :
    Literal.character text = .error (.invalidCharacter (String.ofList text)) ↔
      ∀ c, Literal.character text ≠ .ok c := by
  constructor
  · intro failed c success
    rw [failed] at success
    cases success
  · intro none
    unfold Literal.character at none ⊢
    dsimp only at none ⊢
    split
    · next c named =>
      rw [named] at none
      exact absurd rfl (none c)
    · next named =>
      rw [named] at none
      split
      · next c body =>
        rw [body] at none
        exact absurd rfl (none c)
      · rfl

theorem yieldsCharacter_decode (text : List Char) :
    YieldsCharacter text (Literal.decode .character text) := by
  refine ⟨fun c => ?_, ?_⟩
  · rw [Literal.decode, map_eq_ok_iff, ← character_eq_ok_iff]
    simp
  · rw [Literal.decode, map_eq_error_iff, character_eq_error_iff]
    exact forall_congr' fun c => not_congr character_eq_ok_iff

/-- A number is an unsigned one behind the sign that is split off it. -/
theorem splitSign_number {text : List Char} (matched : text ∈ Lexeme.number.language) :
    (Number.Decimal.splitSign text).2 ∈ Pattern.unsigned.language := by
  obtain unsigned | ⟨sign, rest, rfl | rfl, unsigned, rfl⟩ := Lexeme.mem_number.mp matched
  · obtain ⟨c, rest, rfl, first⟩ := Pattern.unsigned_starts unsigned
    unfold Number.Decimal.splitSign
    split
    · next same =>
      cases same
      exact absurd first (by simp)
    · next same =>
      cases same
      exact absurd first (by simp)
    · exact unsigned
  · exact unsigned
  · exact unsigned

theorem exponent?_isSome {text : List Char} (matched : text ∈ Pattern.exponent.language) :
    (Number.Decimal.exponent? text).isSome := by
  obtain ⟨mark, sign, digits, marks, signs, some, all, rfl⟩ := Pattern.mem_exponent.mp matched
  have behind : (Number.Decimal.splitSign (sign ++ digits)).2 = digits := by
    obtain ⟨d, ds, rfl⟩ := List.exists_cons_of_ne_nil some
    have digit := all d List.mem_cons_self
    obtain rfl | rfl | rfl := signs
    · unfold Number.Decimal.splitSign
      split
      · next same =>
        cases same
        cases digit
      · next same =>
        cases same
        cases digit
      · rfl
    · rfl
    · rfl
  rw [Number.Decimal.exponent?, if_pos marks, Number.Decimal.signed?]
  simp [behind, some, List.all_eq_true.mpr all]

/-- What may follow a mantissa has a value, and neither a digit nor a point begins it. -/
theorem exponent?_opt {text : List Char} (matched : text ∈ Pattern.exponent.opt.language) :
    (Number.Decimal.exponent? text).isSome ∧ text.takeWhile Char.isDigit = [] ∧
      text.dropWhile Char.isDigit = text ∧ ∀ cs, text ≠ '.' :: cs := by
  obtain exponent | rfl := Pattern.mem_opt.mp matched
  · refine ⟨exponent?_isSome exponent, ?_⟩
    obtain ⟨mark, sign, digits, rfl | rfl, -, -, -, rfl⟩ := Pattern.mem_exponent.mp exponent
    · exact ⟨rfl, rfl, nofun⟩
    · exact ⟨rfl, rfl, nofun⟩
  · exact ⟨rfl, rfl, rfl, nofun⟩

/-- The text of a number has a value. -/
theorem number_eq_ok {text : List Char} (matched : text ∈ Lexeme.number.language) :
    ∃ x, Literal.number text = .ok x := by
  have valued : (Number.Decimal.ofLiteral? text).isSome := by
    obtain ⟨front, mantissa, back, exponent, split⟩ :=
      Pattern.mem_seq.mp (splitSign_number matched)
    obtain ⟨known, none, all, point⟩ := exponent?_opt exponent
    unfold Number.Decimal.ofLiteral?
    rw [← Prod.eta (Number.Decimal.splitSign text), ← split]
    dsimp only
    obtain ⟨some, digits⟩ | ⟨whole, fraction, some, digits, digits', rfl⟩ :=
      Pattern.mem_mantissa.mp mantissa
    · rw [List.takeWhile_append_of_pos digits, List.dropWhile_append_of_pos digits, none, all]
      split
      · next ds => exact absurd rfl (point ds)
      · simp [some, known]
    · rw [List.append_assoc, List.takeWhile_append_of_pos digits,
        List.dropWhile_append_of_pos digits, List.cons_append,
        List.takeWhile_cons_of_neg (by decide), List.dropWhile_cons_of_neg (by decide)]
      simp only [List.append_nil]
      rw [List.takeWhile_append_of_pos digits', List.dropWhile_append_of_pos digits', none, all]
      simp [some, known]
  obtain ⟨d, value⟩ := Option.isSome_iff_exists.mp valued
  refine ⟨d.toFloat, ?_⟩
  rw [Literal.number, value]

/-! ## Lexemes in their places -/

namespace Scan

/-- What is taken from the front of a text: the longest start that some pattern matches, or one
character where no pattern matches anything. -/
def Takes (text rest : List Char) : Prop :=
  ∃ n, Longest declared (text ++ rest) n ∧ text.length = max n 1

/-- Taking one lexeme after another, the scanner has come past `before`, and `after` is left. -/
inductive Comes (source : List Char) : List Char → List Char → Prop where
  | start : Comes source [] source
  | past {before text rest : List Char} (here : Comes source before (text ++ rest))
      (takes : Takes text rest) : Comes source (before ++ text) rest

section Places

variable {source before text rest : List Char} {c : Char} {cs : List Char}

theorem longest_unique {language : Language Char} {m n : Nat} (first : Longest language cs m)
    (second : Longest language cs n) : m = n := by
  have most {a b : Nat} (left : Longest language cs a) (right : Longest language cs b) :
      a ≤ b := by
    obtain rfl | ⟨text, matched, starts, rfl⟩ := left.found
    · exact Nat.zero_le b
    · exact right.greatest text matched starts
  exact Nat.le_antisymm (most first second) (most second first)

/-- What is taken is what is classified. -/
theorem takes_iff : Takes text rest ↔
    ∃ c cs, text ++ rest = c :: cs ∧ text = c :: cs.take (Lexeme.classify c cs).2 ∧
      rest = cs.drop (Lexeme.classify c cs).2 := by
  constructor
  · rintro ⟨n, longest, length⟩
    cases text with
    | nil =>
      rw [List.length_nil] at length
      omega
    | cons c text =>
      have enough : text.length = (Lexeme.classify c (text ++ rest)).2 := by
        rw [List.length_cons] at length
        by_cases unknown : (Lexeme.classify c (text ++ rest)).1 = .unknown
        · obtain ⟨alone, none⟩ := Lexeme.classify_unknown unknown
          have zero := longest_unique longest none
          omega
        · obtain ⟨-, found⟩ := Lexeme.classify_longest unknown
          have same := longest_unique longest found
          have inside := (Lexeme.classify_fits c (text ++ rest)).inside
          rw [List.length_cons, List.length_take_of_le inside] at same
          omega
      refine ⟨c, text ++ rest, rfl, ?_, ?_⟩
      · rw [List.take_left' enough]
      · rw [List.drop_left' enough]
  · rintro ⟨c, cs, whole, rfl, rfl⟩
    rw [Takes, whole]
    by_cases unknown : (Lexeme.classify c cs).1 = .unknown
    · obtain ⟨alone, none⟩ := Lexeme.classify_unknown unknown
      exact ⟨0, none, by simp [alone]⟩
    · obtain ⟨-, found⟩ := Lexeme.classify_longest unknown
      exact ⟨_, found, by simp⟩

theorem Takes.eq_take (takes : Takes (c :: text) rest) :
    text = (text ++ rest).take (Lexeme.classify c (text ++ rest)).2 := by
  obtain ⟨d, ds, split, same, -⟩ := takes_iff.mp takes
  rw [List.cons_append, List.cons.injEq] at split
  obtain ⟨rfl, rfl⟩ := split
  exact (List.cons.inj same).2

theorem Comes.split {after : List Char} (comes : Comes source before after) :
    source = before ++ after := by
  induction comes with
  | start => rfl
  | past _ _ ih => rw [ih, List.append_assoc]

/-- The items of what is left are among those of the whole. -/
theorem exists_items_of_comes {after : List Char} (comes : Comes source before after) :
    ∃ done, items source = done ++ itemsOnto [] (Position.first.advance before) after := by
  induction comes with
  | start => exact ⟨[], rfl⟩
  | @past before text rest here takes ih =>
    obtain ⟨done, whole⟩ := ih
    obtain ⟨c, cs, split, same, same'⟩ := takes_iff.mp takes
    rw [split, itemsOnto_cons, ← same, ← same', ← Position.advance_append, ← List.append_assoc]
      at whole
    exact ⟨_, whole⟩

/-- What an item says is what its lexeme is decoded to. -/
theorem yielded_of_item? {p : Position} {k : Lexeme} {item : Item}
    (given : item? p k text = some item) : item.yielded = Literal.decode k text := by
  unfold item? at given
  split at given
  · cases given
  · cases given
  · dsimp only at given
    split at given
    · next decoded =>
      cases given
      exact decoded.symm
    · next decoded =>
      cases given
      exact decoded.symm

/-- A lexeme that is no layout yields what it is decoded to, in its place. -/
theorem exists_item_of_takes (comes : Comes source before (c :: text ++ rest))
    (takes : Takes (c :: text) rest) {k : Lexeme}
    (found : (Lexeme.classify c (text ++ rest)).1 = k) (visible : ¬ k.Skipped) :
    ∃ item ∈ items source, Stands before (c :: text) item ∧
      item.yielded = Literal.decode k (c :: text) := by
  obtain ⟨done, whole⟩ := exists_items_of_comes comes
  obtain ⟨skipped, -⟩ | ⟨-, item, given, -, stands⟩ := item?_advance before (c :: text) k
  · exact absurd skipped visible
  · refine ⟨item, ?_, stands, yielded_of_item? given⟩
    rw [whole, List.cons_append, itemsOnto_cons, found, ← takes.eq_take, given]
    simp

/-- Every item was yielded for what was taken somewhere. -/
theorem exists_takes_of_mem {after : List Char} {item : Item}
    (comes : Comes source before after)
    (member : item ∈ itemsOnto [] (Position.first.advance before) after) :
    ∃ front c text rest k, Comes source front (c :: text ++ rest) ∧ Takes (c :: text) rest ∧
      (Lexeme.classify c (text ++ rest)).1 = k ∧ ¬ k.Skipped ∧ Stands front (c :: text) item ∧
        item.yielded = Literal.decode k (c :: text) := by
  induction length : after.length using Nat.strongRecOn generalizing before after with
  | _ n ih =>
    cases after with
    | nil =>
      rw [itemsOnto] at member
      cases member
    | cons c cs =>
      have split : c :: cs.take (Lexeme.classify c cs).2 ++ cs.drop (Lexeme.classify c cs).2 =
          c :: cs := by rw [List.cons_append, List.take_append_drop]
      have takes : Takes (c :: cs.take (Lexeme.classify c cs).2)
          (cs.drop (Lexeme.classify c cs).2) := takes_iff.mpr ⟨c, cs, split, rfl, rfl⟩
      rw [← split] at comes
      rw [itemsOnto_cons] at member
      obtain here | later := List.mem_append.mp member
      · refine ⟨before, c, _, _, (Lexeme.classify c cs).1, comes, takes, ?_, ?_⟩
        · rw [List.take_append_drop]
        · obtain ⟨-, none⟩ | ⟨visible, _, given, -, stands⟩ := item?_advance before
            (c :: cs.take (Lexeme.classify c cs).2) (Lexeme.classify c cs).1
          · rw [none] at here
            cases here
          · rw [given, Option.toList_some, List.mem_singleton] at here
            subst here
            exact ⟨visible, stands, yielded_of_item? given⟩
      · rw [← Position.advance_append] at later
        refine ih _ ?_ (.past comes takes) later rfl
        rw [← length, List.length_drop, List.length_cons]
        omega

/-- What is taken is of the class that is found there. -/
theorem mem_language_of_takes {k : Lexeme} (takes : Takes (c :: text) rest)
    (found : (Lexeme.classify c (text ++ rest)).1 = k) (known : k ≠ .unknown) :
    c :: text ∈ k.language := by
  subst found
  have matched := (Lexeme.classify_longest known).1
  rwa [← takes.eq_take] at matched

/-- A lexeme that begins with a double quote is a string literal, closed or not, and yields what its
pieces say. -/
theorem string_yielded (comes : Comes source before ('"' :: text ++ rest))
    (takes : Takes ('"' :: text) rest) :
    ∃ item ∈ items source, Stands before ('"' :: text) item ∧ ∃ pieces closed,
      SpellsString ('"' :: text) pieces closed ∧ YieldsString pieces closed item.yielded := by
  have found : (Lexeme.classify '"' (text ++ rest)).1 = .string := rfl
  obtain ⟨item, member, stands, yielded⟩ :=
    exists_item_of_takes comes takes found (by simp [Lexeme.Skipped])
  obtain ⟨tail, matched, same⟩ :=
    Pattern.mem_char_seq.mp (mem_language_of_takes takes found (by decide))
  cases same
  obtain ⟨pieces, closed, fits, rfl⟩ := Piece.mem_stringTail_iff.mp matched
  refine ⟨item, member, stands, pieces, closed, ⟨fits, rfl⟩, ?_⟩
  rw [yielded]
  exact Piece.yieldsString_decode fits

/-- Two marks that are taken together begin a character literal. -/
theorem character_yielded {text : List Char}
    (comes : Comes source before ('#' :: '\\' :: text ++ rest))
    (takes : Takes ('#' :: '\\' :: text) rest) :
    ∃ item ∈ items source, Stands before ('#' :: '\\' :: text) item ∧
      YieldsCharacter ('#' :: '\\' :: text) item.yielded := by
  have found : (Lexeme.classify '#' ('\\' :: text ++ rest)).1 = .character := by
    have same := takes.eq_take
    by_contra other
    have alone : (Lexeme.classify '#' ('\\' :: text ++ rest)).2 = 0 := by
      change (Lexeme.classifyHash ('\\' :: (text ++ rest))).1 ≠ .character at other
      change (Lexeme.classifyHash ('\\' :: (text ++ rest))).2 = 0
      generalize text ++ rest = cs at other
      cases cs with
      | nil => rfl
      | cons c cs =>
        rw [Lexeme.classifyHash] at other ⊢
        split
        · rfl
        · next visible => exact absurd (by rw [if_neg visible]) other
    rw [alone] at same
    cases same
  obtain ⟨item, member, stands, yielded⟩ :=
    exists_item_of_takes comes takes found (by simp [Lexeme.Skipped])
  refine ⟨item, member, stands, ?_⟩
  rw [yielded]
  exact yieldsCharacter_decode _

/-- No error is of a number, and an invalid token is one character. -/
theorem error_yielded {e : LexicalError} (member : .error e ∈ items source) :
    (∀ text, e.fault ≠ .invalidNumber text) ∧
      (e.fault = .invalidToken → ∃ before c rest, source = before ++ c :: rest ∧
        Stands before [c] (.error e)) := by
  obtain ⟨before, c, text, rest, k, comes, takes, found, visible, stands, yielded⟩ :=
    exists_takes_of_mem .start member
  have decoded := decode_lexeme (c :: text) visible
  rw [← yielded] at decoded
  change e.fault.lexeme = k at decoded
  constructor
  · intro literal fault
    rw [fault] at decoded
    change .number = k at decoded
    subst decoded
    obtain ⟨x, value⟩ := number_eq_ok (mem_language_of_takes takes found (by decide))
    rw [Literal.decode, value] at yielded
    cases yielded
  · intro fault
    rw [fault] at decoded
    change .unknown = k at decoded
    subst decoded
    have alone := takes.eq_take
    rw [(Lexeme.classify_unknown found).1, List.take_zero] at alone
    subst alone
    exact ⟨before, c, rest, comes.split, stands⟩

end Places
end Scan

/-- Whatever is taken from a source and begins with a double quote is a string literal and yields
just what its pieces say; whatever begins with the two marks yields a character just if one stands
or is named behind them. No number literal is an error, and an invalid token is one character. -/
theorem scan_yields (source : String) :
    (∀ before text rest, Scan.Comes source.toList before (text ++ rest) → Scan.Takes text rest →
      (['"'] <+: text → ∃ item ∈ scan source, Scan.Stands before text item ∧
        ∃ pieces closed, SpellsString text pieces closed ∧
          YieldsString pieces closed item.yielded) ∧
      (['#', '\\'] <+: text → ∃ item ∈ scan source, Scan.Stands before text item ∧
        YieldsCharacter text item.yielded)) ∧
    ∀ e, .error e ∈ scan source → (∀ text, e.fault ≠ .invalidNumber text) ∧
      (e.fault = .invalidToken → ∃ before c rest, source.toList = before ++ c :: rest ∧
        Scan.Stands before [c] (.error e)) := by
  refine ⟨fun before text rest comes takes => ⟨?_, ?_⟩, fun e => Scan.error_yielded⟩
  · rintro ⟨more, rfl⟩
    exact Scan.string_yielded comes takes
  · rintro ⟨more, rfl⟩
    exact Scan.character_yielded comes takes

/-- No character is named `ab`, no escape is a `q`, and the backslash at the end is no part of the
string before it. -/
theorem scan_yields_of_unknown_escape :
    let source := "#\\ab \"\\q\" \"a\\"
    let mark := ['#', '\\', 'a', 'b']
    let literal := ['"', '\\', 'q', '"']
    let rest := [' ', '"', 'a', '\\']
    Scan.Takes mark (' ' :: literal ++ rest) ∧ Scan.Takes literal rest ∧
    Scan.Comes source.toList (mark ++ [' ']) (literal ++ rest) ∧
    (∃ item ∈ scan source, Scan.Stands [] mark item ∧
      item.yielded = .error (.invalidCharacter (String.ofList mark))) ∧
    (∃ item ∈ scan source, Scan.Stands (mark ++ [' ']) literal item ∧
      item.yielded = .error (.unknownEscape 'q')) ∧
    ∃ e, .error e ∈ scan source ∧ e.fault = .invalidToken ∧ ∃ before c rest,
      source.toList = before ++ c :: rest ∧ Scan.Stands before [c] (.error e) := by
  intro source mark literal rest
  have split : source.toList = mark ++ ([' '] ++ (literal ++ rest)) := by decide +kernel
  have takesMark : Scan.Takes mark (' ' :: literal ++ rest) :=
    Scan.takes_iff.mpr ⟨'#', _, rfl, by decide +kernel, by decide +kernel⟩
  have takesBlank : Scan.Takes [' '] (literal ++ rest) :=
    Scan.takes_iff.mpr ⟨' ', _, rfl, by decide +kernel, by decide +kernel⟩
  have takesLiteral : Scan.Takes literal rest :=
    Scan.takes_iff.mpr ⟨'"', _, rfl, by decide +kernel, by decide +kernel⟩
  have first : Scan.Comes source.toList [] (mark ++ (' ' :: literal ++ rest)) := by
    rw [split]
    exact .start
  have comes : Scan.Comes source.toList (mark ++ [' ']) (literal ++ rest) :=
    .past (.past first takesMark) takesBlank
  obtain ⟨literals, errors⟩ := scan_yields source
  refine ⟨takesMark, takesLiteral, comes, ?_, ?_, ?_⟩
  · obtain ⟨item, member, stands, yields⟩ := (literals [] mark _ first takesMark).2 ⟨_, rfl⟩
    have unnamed : ∀ c, ¬ (mark.drop 2 = [c] ∨ (String.ofList (mark.drop 2), c) ∈
        Atom.characterNames) := by
      simp [mark, Atom.characterNames]
    exact ⟨item, member, stands, yields.invalid.mpr unnamed⟩
  · obtain ⟨item, member, stands, pieces, closed, spells, yields⟩ :=
      (literals _ literal rest comes takesLiteral).1 ⟨_, rfl⟩
    have body : ['\\', 'q', '"'] = Piece.join pieces closed := (List.cons.inj spells.spelled).2
    have unknown : Piece.FirstUnknown pieces 'q' := by
      cases pieces with
      | nil => cases closed <;> simp [Piece.join] at body
      | cons piece more =>
        cases piece with
        | plain c =>
          obtain ⟨rfl, -⟩ := List.cons.inj body
          exact absurd rfl (spells.fits _ List.mem_cons_self).2
        | escape c =>
          obtain ⟨rfl, -⟩ := List.cons.inj (List.cons.inj body).2
          exact ⟨[], more, rfl, by simp, rfl⟩
    exact ⟨item, member, stands, (yields.unknown 'q').mpr unknown⟩
  · have last : .error ⟨.invalidToken, ⟨12, 13⟩, 1, "\\"⟩ ∈ scan source := by decide +kernel
    exact ⟨_, last, rfl, (errors _ last).2 rfl⟩

/-- The backslash that nothing follows is no part of the string before it. -/
example : (scan "#\\ab \"\\q\" \"a\\").map Item.yielded =
    [.error (.invalidCharacter "#\\ab"), .error (.unknownEscape 'q'), .error .unterminatedString,
      .error .invalidToken] := by
  cbv

end MiniScheme
