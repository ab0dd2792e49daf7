import Mathlib
import MiniScheme.Token.Lexeme

/-!
# Patterns of lexemes

Each class of lexemes is declared by a regular expression over classes of characters. `pattern`
lists the declarations and `language` says which texts they match, with no reference to how a
scanner finds them. The class of what nothing declares matches no text.
-/
namespace MiniScheme

/-- A regular expression over classes of characters. -/
inductive Pattern where
  | never
  | empty
  | one (allowed : Char → Bool)
  | seq (p q : Pattern)
  | alt (p q : Pattern)
  | star (p : Pattern)

namespace Pattern

open Computability

/-- The texts that a pattern matches from end to end. -/
def language : Pattern → Language Char
  | never => 0
  | empty => 1
  | one allowed => {text : List Char | ∃ c, allowed c ∧ text = [c]}
  | seq p q => p.language * q.language
  | alt p q => p.language + q.language
  | star p => p.language∗

/-- One given character. -/
def char (c : Char) : Pattern := one (· = c)

/-- The given characters in turn. -/
def literal : List Char → Pattern
  | [] => empty
  | c :: cs => (char c).seq (literal cs)

/-- Once or more. -/
def plus (p : Pattern) : Pattern := p.seq p.star

/-- Once or not at all. -/
def opt (p : Pattern) : Pattern := p.alt empty

section Membership

variable {p q : Pattern} {allowed : Char → Bool} {c : Char} {text : List Char}

@[simp] theorem mem_never : text ∈ never.language ↔ False := Iff.rfl

@[simp] theorem mem_empty : text ∈ empty.language ↔ text = [] := Iff.rfl

@[simp] theorem mem_one : text ∈ (one allowed).language ↔ ∃ c, allowed c ∧ text = [c] := Iff.rfl

@[simp] theorem mem_alt : text ∈ (p.alt q).language ↔ text ∈ p.language ∨ text ∈ q.language :=
  Iff.rfl

theorem mem_seq : text ∈ (p.seq q).language ↔
    ∃ a ∈ p.language, ∃ b ∈ q.language, a ++ b = text := Language.mem_mul

@[simp] theorem mem_opt : text ∈ p.opt.language ↔ text ∈ p.language ∨ text = [] := Iff.rfl

@[simp] theorem mem_char : text ∈ (char c).language ↔ text = [c] := by
  simp [char]

@[simp] theorem mem_one_seq : text ∈ ((one allowed).seq q).language ↔
    ∃ c rest, allowed c ∧ rest ∈ q.language ∧ text = c :: rest := by
  rw [mem_seq]
  constructor
  · rintro ⟨_, ⟨c, fits, rfl⟩, rest, matched, rfl⟩
    exact ⟨c, rest, fits, matched, rfl⟩
  · rintro ⟨c, rest, fits, matched, rfl⟩
    exact ⟨[c], ⟨c, fits, rfl⟩, rest, matched, rfl⟩

@[simp] theorem mem_char_seq : text ∈ ((char c).seq q).language ↔
    ∃ rest ∈ q.language, text = c :: rest := by
  simp [char]

@[simp] theorem mem_literal {cs : List Char} : text ∈ (literal cs).language ↔ text = cs := by
  induction cs generalizing text with
  | nil => simp [literal]
  | cons c cs ih => simp [literal, ih]

@[simp] theorem mem_literal_seq {cs : List Char} : text ∈ ((literal cs).seq q).language ↔
    ∃ rest ∈ q.language, text = cs ++ rest := by
  simp [mem_seq, eq_comm]

/-- A repeated class matches the texts made of it. -/
@[simp] theorem mem_star_one : text ∈ (one allowed).star.language ↔ ∀ c ∈ text, allowed c := by
  constructor
  · rintro ⟨parts, rfl, matched⟩ c member
    obtain ⟨part, inside, here⟩ := List.mem_flatten.mp member
    obtain ⟨d, fits, rfl⟩ := matched part inside
    rw [List.mem_singleton.mp here]
    exact fits
  · intro all
    refine ⟨text.map ([·]), ?_, ?_⟩
    · rw [← List.flatMap_def, List.flatMap_singleton']
    · intro part inside
      obtain ⟨c, member, rfl⟩ := List.mem_map.mp inside
      exact ⟨c, all c member, rfl⟩

@[simp] theorem mem_plus_one : text ∈ (one allowed).plus.language ↔
    text ≠ [] ∧ ∀ c ∈ text, allowed c := by
  rw [plus, mem_one_seq]
  cases text with
  | nil => simp
  | cons c cs => simp

/-- A repetition followed by something begins with that something or with what is repeated. -/
theorem mem_star_seq : text ∈ (p.star.seq q).language ↔
    text ∈ q.language ∨ ∃ a ∈ p.language, ∃ b ∈ (p.star.seq q).language, a ++ b = text := by
  have unfolded : (p.star.seq q).language = q.language + p.language * (p.star.seq q).language := by
    change p.language∗ * q.language = q.language + p.language * (p.language∗ * q.language)
    nth_rewrite 1 [← one_add_mul_kstar]
    rw [add_mul, one_mul, mul_assoc]
  nth_rewrite 1 [unfolded]
  exact or_congr Iff.rfl Language.mem_mul

end Membership

/-- A digit from `0` to `9`. -/
def digit : Pattern := one Char.isDigit

/-- `[0-9]+(\.[0-9]*)?|\.[0-9]+` -/
def mantissa : Pattern :=
  (digit.plus.seq ((char '.').seq digit.star).opt).alt ((char '.').seq digit.plus)

/-- `[-+]?` -/
def sign : Pattern := ((char '-').alt (char '+')).opt

/-- `[eE][-+]?[0-9]+` -/
def exponent : Pattern := (one (· ∈ ['e', 'E'])).seq (sign.seq digit.plus)

def unsigned : Pattern := mantissa.seq exponent.opt

/-- `([^"\\]|\\.)*"?`, what follows the opening quote of a string. -/
def stringTail : Pattern :=
  ((one (· ∉ ['"', '\\'])).alt ((char '\\').seq (one (· ≠ '\n')))).star.seq (char '"').opt

def subsequents : Pattern := (one Lexeme.isSubsequent).star

end Pattern

/-- The pattern that declares a class of lexemes. -/
def Lexeme.pattern : Lexeme → Pattern
  | .blank => (Pattern.one isLayout).plus
  | .comment => (Pattern.char ';').seq (Pattern.one (· ≠ '\n')).star
  | .opener b => Pattern.char b.opening
  | .closer b => Pattern.char b.closing
  | .dot => Pattern.char '.'
  | .quote => Pattern.char '\x27'
  | .boolean true => (Pattern.literal ['#', 't']).alt (Pattern.literal ['#', 'T'])
  | .boolean false => (Pattern.literal ['#', 'f']).alt (Pattern.literal ['#', 'F'])
  | .number => Pattern.sign.seq Pattern.unsigned
  -- `#\\.[^\s()\[\]";']*`
  | .character =>
    (Pattern.literal ['#', '\\']).seq ((Pattern.one (· ≠ '\n')).seq (Pattern.one isNameChar).star)
  | .string => (Pattern.char '"').seq Pattern.stringTail
  -- an initial and subsequents, `+`, `-`, `...`, or `->` and subsequents
  | .symbol =>
    ((Pattern.one isInitial).seq Pattern.subsequents).alt <| (Pattern.literal ['+']).alt <|
      (Pattern.literal ['-']).alt <| (Pattern.literal ['.', '.', '.']).alt <|
        (Pattern.literal ['-', '>']).seq Pattern.subsequents
  | .unknown => Pattern.never

/-- The classes whose texts give no item. -/
def Lexeme.Skipped (k : Lexeme) : Prop := k = .blank ∨ k = .comment

/-- The texts of a class. -/
def Lexeme.language (k : Lexeme) : Language Char := k.pattern.language

/-- The texts that some pattern matches. -/
def Lexeme.declared : Language Char := ⨆ k : Lexeme, k.language

/-! ## The shape of what the patterns match -/

namespace Pattern

variable {text : List Char}

/-- Some digits, or a point with digits on one side of it at least. -/
theorem mem_mantissa : text ∈ mantissa.language ↔
    (text ≠ [] ∧ ∀ d ∈ text, d.isDigit) ∨
      ∃ whole fraction, ¬ (whole = [] ∧ fraction = []) ∧ (∀ d ∈ whole, d.isDigit) ∧
        (∀ d ∈ fraction, d.isDigit) ∧ text = whole ++ '.' :: fraction := by
  rw [mantissa, mem_alt, mem_char_seq, mem_seq]
  simp only [digit, mem_plus_one, mem_opt, mem_char_seq, mem_star_one]
  constructor
  · rintro (⟨whole, ⟨some, digits⟩, _, ⟨fraction, digits', rfl⟩ | rfl, rfl⟩ |
      ⟨fraction, ⟨some, digits⟩, rfl⟩)
    · exact .inr ⟨whole, fraction, fun none => some none.1, digits, digits', rfl⟩
    · rw [List.append_nil]
      exact .inl ⟨some, digits⟩
    · exact .inr ⟨[], fraction, fun none => some none.2, by simp, digits, rfl⟩
  · rintro (⟨some, digits⟩ | ⟨whole, fraction, some, digits, digits', rfl⟩)
    · exact .inl ⟨text, ⟨some, digits⟩, [], .inr rfl, List.append_nil text⟩
    · by_cases none : whole = []
      · subst none
        exact .inr ⟨fraction, ⟨fun empty => some ⟨rfl, empty⟩, digits'⟩, rfl⟩
      · exact .inl ⟨whole, ⟨none, digits⟩, _, .inl ⟨fraction, digits', rfl⟩, rfl⟩

/-- The mark, a sign that may be left out, and some digits. -/
theorem mem_exponent : text ∈ exponent.language ↔
    ∃ mark sign digits, (mark = 'e' ∨ mark = 'E') ∧ (sign = [] ∨ sign = ['-'] ∨ sign = ['+']) ∧
      digits ≠ [] ∧ (∀ d ∈ digits, d.isDigit) ∧ text = mark :: (sign ++ digits) := by
  rw [exponent, mem_one_seq]
  simp only [mem_seq, sign, digit, mem_opt, mem_alt, mem_char, mem_plus_one]
  constructor
  · rintro ⟨mark, _, marks, ⟨sign, signs, digits, ⟨some, all⟩, rfl⟩, rfl⟩
    exact ⟨mark, sign, digits, by simpa using marks, signs.symm, some, all, rfl⟩
  · rintro ⟨mark, sign, digits, marks, signs, some, all, rfl⟩
    exact ⟨mark, _, by simpa using marks, ⟨sign, signs.symm, digits, ⟨some, all⟩, rfl⟩, rfl⟩

/-- A mantissa has a character, and each is a digit or the point. -/
theorem mantissa_chars (matched : text ∈ mantissa.language) :
    text ≠ [] ∧ ∀ c ∈ text, c.isDigit ∨ c = '.' := by
  obtain ⟨some, digits⟩ | ⟨whole, fraction, -, digits, digits', rfl⟩ := mem_mantissa.mp matched
  · exact ⟨some, fun c member => .inl (digits c member)⟩
  · refine ⟨by simp, fun c member => ?_⟩
    obtain front | rfl | back := by simpa using member
    · exact .inl (digits c front)
    · exact .inr rfl
    · exact .inl (digits' c back)

/-- A number without a sign begins with a digit, or with a point and a digit. -/
theorem unsigned_starts (matched : text ∈ unsigned.language) :
    ∃ c rest, text = c :: rest ∧
      (c.isDigit ∨ c = '.' ∧ ∃ d ds, rest = d :: ds ∧ d.isDigit) := by
  obtain ⟨front, mantissa, back, -, rfl⟩ := mem_seq.mp matched
  obtain ⟨some, digits⟩ | ⟨whole, fraction, some, digits, digits', rfl⟩ := mem_mantissa.mp mantissa
  · obtain ⟨d, ds, rfl⟩ := List.exists_cons_of_ne_nil some
    exact ⟨d, ds ++ back, rfl, .inl (digits d List.mem_cons_self)⟩
  · cases whole with
    | cons d ds => exact ⟨d, _, rfl, .inl (digits d List.mem_cons_self)⟩
    | nil =>
      obtain ⟨d, ds, rfl⟩ := List.exists_cons_of_ne_nil fun none => some ⟨rfl, none⟩
      exact ⟨'.', _, rfl, .inr ⟨rfl, d, ds ++ back, rfl, digits' d List.mem_cons_self⟩⟩

/-- What may follow the opening quote of a string: nothing, the closing quote, or a character or an
escape and then the same again. -/
theorem mem_stringTail : text ∈ stringTail.language ↔
    (text = ['"'] ∨ text = []) ∨
      (∃ c rest, (c ≠ '"' ∧ c ≠ '\\') ∧ rest ∈ stringTail.language ∧ text = c :: rest) ∨
      ∃ c rest, c ≠ '\n' ∧ rest ∈ stringTail.language ∧ text = '\\' :: c :: rest := by
  rw [stringTail, mem_star_seq, ← stringTail]
  simp only [mem_opt, mem_char, mem_alt, mem_one, mem_char_seq, decide_eq_true_eq, List.mem_cons,
    List.not_mem_nil, or_false, not_or]
  refine or_congr Iff.rfl ?_
  constructor
  · rintro ⟨_, ⟨c, plain, rfl⟩ | ⟨_, ⟨c, escaped, rfl⟩, rfl⟩, rest, more, rfl⟩
    · exact .inl ⟨c, rest, plain, more, rfl⟩
    · exact .inr ⟨c, rest, escaped, more, rfl⟩
  · rintro (⟨c, rest, plain, more, rfl⟩ | ⟨c, rest, escaped, more, rfl⟩)
    · exact ⟨[c], .inl ⟨c, plain, rfl⟩, rest, more, rfl⟩
    · exact ⟨['\\', c], .inr ⟨[c], ⟨c, escaped, rfl⟩, rfl⟩, rest, more, rfl⟩

end Pattern

namespace Lexeme

open Pattern

variable {text : List Char}

theorem mem_number : text ∈ number.language ↔
    text ∈ unsigned.language ∨
      ∃ c rest, (c = '-' ∨ c = '+') ∧ rest ∈ unsigned.language ∧ text = c :: rest := by
  change text ∈ (sign.seq unsigned).language ↔ _
  simp only [sign, mem_seq, mem_opt, mem_alt, mem_char]
  constructor
  · rintro ⟨_, (rfl | rfl) | rfl, rest, matched, rfl⟩
    · exact .inr ⟨'-', rest, .inl rfl, matched, rfl⟩
    · exact .inr ⟨'+', rest, .inr rfl, matched, rfl⟩
    · exact .inl matched
  · rintro (matched | ⟨c, rest, signs, matched, rfl⟩)
    · exact ⟨[], .inr rfl, text, matched, rfl⟩
    · exact ⟨[c], .inl (by simpa using signs), rest, matched, rfl⟩

theorem mem_character : text ∈ character.language ↔
    ∃ c rest, c ≠ '\n' ∧ (∀ d ∈ rest, isNameChar d) ∧ text = '#' :: '\\' :: c :: rest := by
  change text ∈ (Pattern.seq _ _).language ↔ _
  rw [mem_literal_seq]
  simp only [mem_one_seq, mem_star_one, decide_eq_true_eq, List.cons_append, List.nil_append]
  constructor
  · rintro ⟨_, ⟨c, rest, first, names, rfl⟩, rfl⟩
    exact ⟨c, rest, first, names, rfl⟩
  · rintro ⟨c, rest, first, names, rfl⟩
    exact ⟨_, ⟨c, rest, first, names, rfl⟩, rfl⟩

theorem mem_symbol : text ∈ symbol.language ↔
    (∃ c rest, isInitial c ∧ (∀ d ∈ rest, isSubsequent d) ∧ text = c :: rest) ∨
      text = ['+'] ∨ text = ['-'] ∨ text = ['.', '.', '.'] ∨
        ∃ rest, (∀ d ∈ rest, isSubsequent d) ∧ text = '-' :: '>' :: rest := by
  change text ∈ (Pattern.alt _ _).language ↔ _
  simp [subsequents]

/-- No pattern matches the empty text. -/
theorem nil_notMem_language (k : Lexeme) : [] ∉ k.language := by
  intro matched
  cases k with
  | blank => exact (mem_plus_one.mp matched).1 rfl
  | comment | string =>
    obtain ⟨_, -, same⟩ := mem_char_seq.mp matched
    cases same
  | opener | closer | dot | quote => cases mem_char.mp matched
  | boolean b =>
    cases b
    all_goals
      obtain same | same := matched
      · cases mem_literal.mp same
      · cases mem_literal.mp same
  | number =>
    obtain matched | ⟨_, _, -, -, same⟩ := mem_number.mp matched
    · obtain ⟨_, _, same, -⟩ := unsigned_starts matched
      cases same
    · cases same
  | character =>
    obtain ⟨_, _, -, -, same⟩ := mem_character.mp matched
    cases same
  | symbol =>
    obtain ⟨_, _, -, -, same⟩ | same | same | same | ⟨_, -, same⟩ := mem_symbol.mp matched
    all_goals cases same
  | unknown => exact mem_never.mp matched

theorem mem_declared : text ∈ declared ↔ ∃ k : Lexeme, text ∈ k.language := Language.mem_iSup

end Lexeme
end MiniScheme
