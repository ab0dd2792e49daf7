import MiniScheme.Proofs.Token.Decoding
import MiniScheme.Proofs.Token.Slice

/-!
# A last symbol that grows

A symbol that ends a text can be made longer, to a longer symbol, by putting characters behind it.
The scanner takes the longest lexeme, so the characters may also be taken by a lexeme that stands
before the symbol. Only one kind of lexeme does this: a number without an exponent that touches the
symbol, when the longer symbol begins with an exponent. All other lexemes that would go on into the
longer symbol went on into the symbol already.
-/
namespace MiniScheme

namespace Lexeme

open Pattern

variable {c : Char} {h v more s text : List Char} {k : Lexeme}

/-- How a symbol begins that can be made longer: with an initial, or with the arrow. -/
inductive Opens : List Char → Prop where
  | initial {c : Char} {cs : List Char} (initial : isInitial c) : Opens (c :: cs)
  | arrow (cs : List Char) : Opens ('-' :: '>' :: cs)

/-- So begins also what is between a symbol and a longer one. -/
theorem opens_of_grown (short : v ∈ symbol.language) (long : v ++ more ∈ symbol.language)
    (some : s ≠ []) (starts : s <+: more) : Opens (v ++ s) := by
  obtain ⟨x, v, rfl⟩ := List.exists_cons_of_ne_nil fun none =>
    nil_notMem_language symbol (none ▸ short)
  obtain ⟨y, s, rfl⟩ := List.exists_cons_of_ne_nil some
  obtain ⟨rest, rfl⟩ := starts
  obtain ⟨_, _, initial, -, same⟩ | same | same | same | ⟨_, -, same⟩ := mem_symbol.mp long
  · cases same
    exact .initial initial
  · simp at same
  · simp at same
  · -- no symbol is a part of the three points
    obtain ⟨rfl, same⟩ := List.cons.inj same
    obtain ⟨_, _, initial, -, part⟩ | part | part | part | ⟨_, -, part⟩ := mem_symbol.mp short
    · cases part
      cases initial
    · cases part
    · cases part
    · cases part
      simp at same
    · cases part
  · obtain ⟨rfl, same⟩ := List.cons.inj same
    cases v with
    | nil =>
      cases same
      exact .arrow s
    | cons z v =>
      cases same
      exact .arrow (v ++ y :: s)

/-- What begins so has a character in it that is not of digits, points and signs. -/
theorem Opens.exists_other {cs : List Char} (opens : Opens cs) :
    ∃ c ∈ cs, c.isDigit = false ∧ c ∉ ['.', '+', '-'] := by
  cases opens with
  | @initial c cs initial =>
    refine ⟨c, List.mem_cons_self, not_digit_of_isInitial initial, fun member => ?_⟩
    simp only [List.mem_cons, List.not_mem_nil, or_false] at member
    obtain rfl | rfl | rfl := member
    all_goals cases initial
  | arrow cs => exact ⟨'>', by simp, rfl, by decide⟩

theorem Opens.first {cs : List Char} (opens : Opens (c :: cs)) : c.isDigit = false ∧ c ≠ '.' := by
  cases opens with
  | initial initial =>
    refine ⟨not_digit_of_isInitial initial, ?_⟩
    rintro rfl
    cases initial
  | arrow => exact ⟨rfl, by decide⟩

/-- A mantissa that begins before the longer symbol ends before it. -/
theorem Opens.not_in_mantissa {front back cs : List Char} (opens : Opens (back ++ cs))
    (matched : front ++ back ∈ mantissa.language) : back = [] := by
  cases back with
  | nil => rfl
  | cons x back =>
    obtain ⟨noDigit, noPoint⟩ := opens.first
    obtain digit | point := (mantissa_chars matched).2 x (by simp)
    · rw [noDigit] at digit
      cases digit
    · exact absurd point noPoint

/-- An exponent that goes on into the longer symbol begins where it begins. -/
theorem Opens.not_in_exponent {front cs : List Char} (opens : Opens cs)
    (matched : front ++ cs ∈ exponent.language) : front = [] := by
  cases front with
  | nil => rfl
  | cons x front =>
    obtain ⟨mark, sign, digits, -, signs, -, all, same⟩ := mem_exponent.mp matched
    obtain ⟨d, member, noDigit, other⟩ := opens.exists_other
    have inside : d ∈ sign ++ digits := by
      rw [← (List.cons.inj same).2]
      exact List.mem_append_right front member
    obtain signed | digit := List.mem_append.mp inside
    · obtain rfl | rfl | rfl := signs
      all_goals simp_all
    · rw [all d digit] at noDigit
      cases noDigit

/-- A number that goes on into the longer symbol has all of it as its exponent. -/
theorem number_grown {g : List Char} (opens : Opens g) (matched : c :: (h ++ g) ∈ number.language) :
    c :: h ∈ (sign.seq mantissa).language ∧ g ∈ exponent.language := by
  have some : g ≠ [] := by
    rintro rfl
    cases opens
  obtain ⟨signed, signs, _, ⟨digits, mantissa, rest, exponent, rfl⟩, same⟩ :=
    mem_seq.mp (show c :: (h ++ g) ∈ (sign.seq unsigned).language from matched)
  rw [← List.append_assoc, ← List.cons_append] at same
  obtain ⟨w, front, rfl⟩ | ⟨w, front, rfl⟩ := List.append_eq_append_iff.mp same
  · obtain exponent | none := mem_opt.mp exponent
    · obtain rfl := opens.not_in_exponent exponent
      rw [List.append_nil] at front
      exact ⟨mem_seq.mpr ⟨signed, signs, digits, mantissa, front.symm⟩, exponent⟩
    · exact absurd (List.append_eq_nil_iff.mp none).2 some
  · -- the sign is one character at most, so what is left of the mantissa is in it
    have inside : ∃ before, digits = before ++ w := by
      simp only [sign, mem_opt, mem_alt, mem_char] at signs
      obtain (rfl | rfl) | rfl := signs
      · exact ⟨h, (List.cons.inj front).2⟩
      · exact ⟨h, (List.cons.inj front).2⟩
      · exact ⟨c :: h, front⟩
    obtain ⟨before, rfl⟩ := inside
    obtain rfl := opens.not_in_mantissa mantissa
    obtain exponent | rfl := mem_opt.mp exponent
    · simp only [List.append_nil] at mantissa front
      exact ⟨mem_seq.mpr ⟨signed, signs, before, mantissa, front⟩, exponent⟩
    · exact absurd rfl some

/-- A character literal goes on into a symbol if its two marks stand before the symbol, and then has
all of it in its name. -/
theorem character_grown (matched : c :: (h ++ (v ++ s)) ∈ character.language)
    (short : v ∈ symbol.language) : c :: (h ++ v) ∈ character.language := by
  obtain ⟨d, names, visible, all, same⟩ := mem_character.mp matched
  rw [List.cons.injEq] at same
  obtain ⟨rfl, same⟩ := same
  obtain _ | ⟨_, _ | ⟨_, h⟩⟩ := h
  · -- a symbol has no backslash
    cases v with
    | nil => exact absurd short (nil_notMem_language symbol)
    | cons x v =>
      obtain ⟨rfl, -⟩ := List.cons.inj same
      exact absurd (symbol_subsequent short _ List.mem_cons_self) (by decide)
  · cases v with
    | nil => exact absurd short (nil_notMem_language symbol)
    | cons x v =>
      cases same
      exact mem_character.mpr
        ⟨d, v, visible, fun e member => all e (List.mem_append_left s member), rfl⟩
  · cases same
    refine mem_character.mpr ⟨d, h ++ v, visible, fun e member => all e ?_, rfl⟩
    have longer := List.mem_append_left s member
    rwa [List.append_assoc] at longer

/-- A symbol that goes on into the longer symbol has all of the shorter one in it. -/
theorem symbol_grown (matched : c :: (h ++ (v ++ s)) ∈ symbol.language)
    (short : v ∈ symbol.language) (opens : Opens (v ++ s)) (some : s ≠ []) :
    c :: (h ++ v) ∈ symbol.language := by
  have someShort : v ≠ [] := fun none => nil_notMem_language symbol (none ▸ short)
  obtain ⟨x, w, front⟩ := List.exists_cons_of_ne_nil fun none : h ++ v = [] =>
    someShort (List.append_eq_nil_iff.mp none).2
  have whole : h ++ (v ++ s) = x :: (w ++ s) := by
    rw [← List.append_assoc, front, List.cons_append]
  rw [whole] at matched
  rw [front]
  obtain ⟨_, _, initial, all, same⟩ | same | same | same | ⟨rest, all, same⟩ :=
    mem_symbol.mp matched
  · cases same
    exact mem_symbol.mpr
      (.inl ⟨c, x :: w, initial, fun d member => all d (List.mem_append_left s member), rfl⟩)
  · cases same
  · cases same
  · -- of three points one is the first character and one is in `s`
    obtain ⟨rfl, rfl⟩ : x = '.' ∧ w = [] := by
      cases w with
      | nil => exact ⟨by simp_all, rfl⟩
      | cons => simp_all
    obtain ⟨rfl, rfl⟩ | ⟨rfl, rfl⟩ := List.append_eq_singleton_iff.mp front
    · exact absurd rfl opens.first.2
    · exact absurd rfl someShort
  · simp only [List.cons.injEq] at same
    obtain ⟨rfl, rfl, rfl⟩ := same
    exact mem_symbol.mpr (.inr (.inr (.inr (.inr
      ⟨w, fun d member => all d (List.mem_append_left s member), rfl⟩))))

/-- A lexeme that goes on into the longer symbol went to the end of the shorter one already, or is
the number that takes its exponent from it. -/
theorem lexeme_grown (matched : c :: (h ++ (v ++ s)) ∈ k.language) (noString : c ≠ '"')
    (short : v ∈ symbol.language) (opens : Opens (v ++ s)) (some : s ≠ []) :
    (∃ k' : Lexeme, c :: (h ++ v) ∈ k'.language) ∨
      c :: h ∈ (sign.seq mantissa).language ∧ v ++ s ∈ exponent.language := by
  have someShort : v ≠ [] := fun none => nil_notMem_language symbol (none ▸ short)
  have two : 2 ≤ (h ++ (v ++ s)).length := by
    have one := List.length_pos_iff.mpr some
    have other := List.length_pos_iff.mpr someShort
    simp only [List.length_append]
    omega
  cases k with
  | number => exact .inr (number_grown opens matched)
  | character => exact .inl ⟨.character, character_grown matched short⟩
  | symbol => exact .inl ⟨.symbol, symbol_grown matched short opens some⟩
  | blank =>
    obtain ⟨-, all⟩ := mem_plus_one.mp matched
    refine .inl ⟨.blank, mem_plus_one.mpr ⟨List.cons_ne_nil _ _, fun d member => all d ?_⟩⟩
    rw [← List.append_assoc, ← List.cons_append]
    exact List.mem_append_left s member
  | comment =>
    obtain ⟨_, all, same⟩ := mem_char_seq.mp matched
    cases same
    refine .inl ⟨.comment, mem_char_seq.mpr ⟨h ++ v, mem_star_one.mpr fun d member => ?_, rfl⟩⟩
    rw [← List.append_assoc] at all
    exact mem_star_one.mp all d (List.mem_append_left s member)
  | opener | closer | dot | quote =>
    rw [(List.cons.inj (mem_char.mp matched)).2] at two
    exact absurd two (by decide)
  | boolean b =>
    cases b
    all_goals
      obtain same | same := matched
      all_goals
        rw [(List.cons.inj (mem_literal.mp same)).2] at two
        exact absurd two (by decide)
  | string =>
    obtain ⟨_, -, same⟩ := mem_char_seq.mp matched
    exact absurd (List.cons.inj same).1 noString
  | unknown => exact absurd matched mem_never.mp

/-- A lexeme other than a string that ends before the last symbol ends there when the symbol grows,
unless it takes its exponent from the longer symbol. -/
theorem classify_grown (inside : (classify c (h ++ v)).2 ≤ h.length) (noString : c ≠ '"')
    (short : v ∈ symbol.language) (long : v ++ more ∈ symbol.language)
    (untaken : c :: h ∈ (sign.seq mantissa).language →
      ¬ ∃ e ∈ exponent.language, e <+: v ++ more) :
    classify c (h ++ (v ++ more)) = classify c (h ++ v) := by
  refine classify_congr fun k text matched => ⟨fun starts => ?_, fun starts => ?_⟩
  · rw [← List.append_assoc] at starts
    by_cases shorter : text.length ≤ (h ++ v).length
    · exact List.prefix_of_prefix_length_le starts (List.prefix_append _ _) shorter
    · obtain ⟨s, rfl⟩ :=
        List.prefix_of_prefix_length_le (List.prefix_append _ _) starts (Nat.le_of_not_le shorter)
      have some : s ≠ [] := by
        rintro rfl
        simp at shorter
      rw [List.prefix_append_right_inj] at starts
      rw [List.append_assoc] at matched
      obtain ⟨k', whole⟩ | ⟨number, exponent⟩ :=
        lexeme_grown matched noString short (opens_of_grown short long some starts) some
      · -- a lexeme up to the end is found, and it is longer than the one that is
        have enough := (classify_reaches whole List.prefix_rfl).enough
        have wide : v.length ≠ 0 := by
          rw [ne_eq, List.length_eq_zero_iff]
          rintro rfl
          exact nil_notMem_language symbol short
        rw [List.length_append] at enough
        omega
      · exact absurd ⟨_, exponent, (List.prefix_append_right_inj v).mpr starts⟩ (untaken number)
  · rw [← List.append_assoc]
    exact starts.trans (List.prefix_append _ _)

end Lexeme

namespace Scan

open Lexeme Pattern

variable {p : Position} {c : Char} {cs h v more : List Char} {item last : Item} {xs ys : List Item}

/-- The item of a symbol at a position. -/
def symbolItem (p : Position) (v : List Char) : Item :=
  .ok ⟨.atom (.symbol (String.ofList v)), ⟨p.offset, (p.advance v).offset⟩, p.line⟩

/-- The last of some items is a number without an exponent that stands at the end of the text `h`,
and `g` begins with an exponent. -/
def TakesExponent (p : Position) (xs : List Item) (h g : List Char) : Prop :=
  ∃ head text, h = head ++ text ∧ text ∈ (sign.seq mantissa).language ∧
    xs.getLast?.map Item.span = some ⟨(p.advance head).offset, (p.advance h).offset⟩ ∧
    ∃ e ∈ exponent.language, e <+: g

theorem classify_symbol (matched : c :: cs ∈ symbol.language) :
    classify c cs = (.symbol, cs.length) := by
  have reaches := classify_reaches matched List.prefix_rfl
  have inside := (classify_fits c cs).inside
  exact Prod.ext (reaches.same inside) (Nat.le_antisymm inside reaches.enough)

/-- A symbol alone is one item. -/
theorem itemsOnto_symbol (matched : v ∈ symbol.language) (p : Position) :
    itemsOnto [] p v = [symbolItem p v] := by
  cases v with
  | nil => exact absurd matched (nil_notMem_language symbol)
  | cons c cs =>
    rw [itemsOnto_cons, classify_symbol matched, List.take_length, List.drop_length, itemsOnto]
    rfl

theorem number_of_signed {text e : List Char} (signed : text ∈ (sign.seq mantissa).language)
    (exponent : e ∈ Pattern.exponent.opt.language) : text ++ e ∈ number.language := by
  obtain ⟨front, signs, digits, mantissa, rfl⟩ := mem_seq.mp signed
  exact mem_seq.mpr ⟨front, signs, digits ++ e,
    mem_seq.mpr ⟨digits, mantissa, e, exponent, rfl⟩, (List.append_assoc ..).symm⟩

theorem number_of_mantissa {text : List Char} (signed : text ∈ (sign.seq mantissa).language) :
    text ∈ number.language := by
  rw [← List.append_nil text]
  exact number_of_signed signed (mem_opt.mpr (.inr rfl))

/-- What is taken first from a text, the item it gives, and what is left. -/
theorem exists_first_lexeme (p : Position) (c : Char) (cs : List Char) :
    ∃ text rest, cs = text ++ rest ∧ (classify c cs).2 = text.length ∧
      itemsOnto [] p (c :: cs) = (item? p (classify c cs).1 (c :: text)).toList ++
        itemsOnto [] (p.advance (c :: text)) rest :=
  ⟨_, _, (List.take_append_drop _ _).symm,
    (List.length_take_of_le (classify_fits c cs).inside).symm, itemsOnto_cons p c cs⟩

/-- A lexeme that gives a symbol and ends where the text ends is that symbol. -/
theorem symbol_of_item? {text rest : List Char} {name : String} {span : Span} {line : Nat}
    (takes : (classify c (text ++ rest)).2 = text.length)
    (given : item? p (classify c (text ++ rest)).1 (c :: text) =
      some (.ok ⟨.atom (.symbol name), span, line⟩))
    (stop : span.stop = (p.advance (c :: (text ++ rest))).offset) :
    rest = [] ∧ c :: text ∈ symbol.language ∧
      .ok ⟨.atom (.symbol name), span, line⟩ = symbolItem p (c :: text) := by
  have covered : span.stop = (p.advance (c :: text)).offset :=
    congrArg Span.stop (itemSpan_of_item? given)
  have same : byteLength (c :: text) = byteLength (c :: (text ++ rest)) :=
    Nat.add_left_cancel (covered.symm.trans stop)
  have split : c :: text ++ rest = c :: (text ++ rest) ++ [] := by
    rw [List.append_nil, List.cons_append]
  obtain ⟨-, rfl⟩ := append_inj_of_byteLength split same
  rw [List.append_nil] at takes given
  obtain ⟨lexeme, -⟩ := decode_eq_symbol (yielded_of_item? given).symm
  have known : (classify c text).1 ≠ .unknown := by
    rw [lexeme]
    exact nofun
  have matched := (classify_longest known).1
  rw [takes, List.take_length, lexeme] at matched
  rw [lexeme] at given
  exact ⟨rfl, matched, (Option.some.inj given).symm⟩

/-- A number that takes its exponent from a longer symbol is the item before the symbol. -/
theorem takesExponent_of_signed {g : List Char} (inside : (classify c (h ++ v)).2 ≤ h.length)
    (number : c :: h ∈ (sign.seq mantissa).language) (short : v ∈ symbol.language)
    (exponent : ∃ e ∈ exponent.language, e <+: g)
    (found : itemsOnto [] p (c :: (h ++ v)) = xs ++ [last]) : TakesExponent p xs (c :: h) g := by
  have reaches := classify_reaches (number_of_mantissa number) (List.prefix_append h v)
  have lexeme : classify c (h ++ v) = (.number, h.length) :=
    Prod.ext (reaches.same inside) (Nat.le_antisymm inside reaches.enough)
  rw [itemsOnto_cons, lexeme, List.take_left, List.drop_left, itemsOnto_symbol short] at found
  cases given : item? p .number (c :: h) with
  | none =>
    obtain same | same := skipped_of_item? given
    all_goals cases same
  | some item =>
    rw [given] at found
    obtain ⟨rfl, -⟩ := List.append_inj' found rfl
    refine ⟨[], c :: h, rfl, number, ?_, exponent⟩
    exact congrArg some (itemSpan_of_item? given)

/-- A lexeme that gives a token and ends before the last symbol ends there when the symbol grows,
unless it takes its exponent from the longer symbol. -/
theorem classify_before_grown (inside : (classify c (h ++ v)).2 ≤ h.length)
    (clean : ∀ e, item? p (classify c (h ++ v)).1 (c :: (h ++ v).take (classify c (h ++ v)).2) ≠
      some (.error e))
    (short : v ∈ symbol.language) (long : v ++ more ∈ symbol.language)
    (untaken : c :: h ∈ (sign.seq mantissa).language →
      ¬ ∃ e ∈ exponent.language, e <+: v ++ more) :
    classify c (h ++ v ++ more) = classify c (h ++ v) := by
  by_cases quote : c = '"'
  · subst quote
    obtain ⟨kind, decoded⟩ := decode_of_clean (by simp [classify, Skipped]) clean
    exact congrArg (Lexeme.string, ·) (stringLength_of_decoded decoded more)
  · rw [List.append_assoc]
    exact classify_grown inside quote short long untaken

/-- From a position the lexemes of a text are taken one after another and give some items, if
`after` stands behind them. -/
inductive Runs (after : List Char) : Position → List Char → List Item → Prop where
  | done (p : Position) : Runs after p [] []
  | lexeme {p : Position} {c : Char} {text rest : List Char} {items : List Item}
      (takes : (classify c (text ++ rest ++ after)).2 = text.length)
      (later : Runs after (p.advance (c :: text)) rest items) :
      Runs after p (c :: (text ++ rest))
        ((item? p (classify c (text ++ rest ++ after)).1 (c :: text)).toList ++ items)

theorem Runs.itemsOnto {after : List Char} (runs : Runs after p h xs) :
    itemsOnto [] p (h ++ after) = xs ++ itemsOnto [] (p.advance h) after := by
  induction runs with
  | done => rfl
  | @lexeme p c text rest items takes later ih =>
    rw [List.cons_append, itemsOnto_cons, takes]
    simp only [List.append_assoc, List.take_left, List.drop_left]
    rw [ih, ← Position.advance_append]
    rfl

/-- A text whose last item is a symbol that ends with it is cut before the symbol. -/
theorem exists_last_symbol {name : String} {span : Span} {line : Nat}
    (found : itemsOnto [] p cs = xs ++ [.ok ⟨.atom (.symbol name), span, line⟩])
    (stop : span.stop = (p.advance cs).offset) :
    ∃ h v, cs = h ++ v ∧ v ∈ symbol.language ∧ Runs v p h xs ∧
      .ok ⟨.atom (.symbol name), span, line⟩ = symbolItem (p.advance h) v := by
  induction length : cs.length using Nat.strongRecOn generalizing p cs xs with
  | _ n ih =>
    cases cs with
    | nil =>
      rw [Scan.itemsOnto] at found
      exact absurd found.symm (by simp)
    | cons c cs =>
      obtain ⟨text, rest, rfl, takes, items⟩ := exists_first_lexeme p c cs
      rw [items] at found
      obtain none | ⟨ys, last, later⟩ :=
        List.eq_nil_or_concat' (itemsOnto [] (p.advance (c :: text)) rest)
      · -- the symbol is all that is left
        rw [none, List.append_nil] at found
        cases given : item? p (classify c (text ++ rest)).1 (c :: text) with
        | none =>
          rw [given] at found
          exact absurd found.symm (by simp)
        | some item =>
          rw [given] at found
          obtain ⟨rfl, same⟩ | ⟨-, same⟩ := List.append_eq_singleton_iff.mp found.symm
          · cases same
            obtain ⟨rfl, matched, same⟩ := symbol_of_item? takes given stop
            rw [List.append_nil]
            exact ⟨[], c :: text, rfl, matched, .done p, same⟩
          · cases same
      · rw [later, ← List.append_assoc] at found
        obtain ⟨rfl, same⟩ := List.append_inj' found rfl
        cases same
        have shorter : rest.length < n := by
          rw [← length, List.length_cons, List.length_append]
          omega
        rw [← List.cons_append, Position.advance_append] at stop
        obtain ⟨h, v, rfl, short, runs, item⟩ := ih _ shorter later stop rfl
        rw [← List.append_assoc] at takes ⊢
        refine ⟨c :: (text ++ h), v, rfl, short, .lexeme takes runs, ?_⟩
        rw [← List.cons_append, Position.advance_append]
        exact item

theorem TakesExponent.behind {g text : List Char}
    (taken : TakesExponent (p.advance text) ys h g) (xs : List Item) :
    TakesExponent p (xs ++ ys) (text ++ h) g := by
  obtain ⟨head, number, rfl, matched, stands, exponent⟩ := taken
  refine ⟨text ++ head, number, (List.append_assoc ..).symm, matched, ?_, exponent⟩
  obtain ⟨item, last, span⟩ := Option.map_eq_some_iff.mp stands
  rw [List.getLast?_append, last, Position.advance_append, Position.advance_append]
  exact congrArg some span

/-- A last symbol that grows leaves the lexemes before it as they are, unless a number before it
takes its exponent from it. -/
theorem Runs.grown (runs : Runs v p h xs) (clean : ∀ e, .error e ∉ xs)
    (short : v ∈ symbol.language) (long : v ++ more ∈ symbol.language)
    (untaken : ¬ TakesExponent p xs h (v ++ more)) : Runs (v ++ more) p h xs := by
  induction runs with
  | done p => exact .done p
  | @lexeme p c text rest items takes later ih =>
    have same : classify c (text ++ rest ++ v ++ more) = classify c (text ++ rest ++ v) := by
      refine classify_before_grown ?_ (p := p) ?_ short long fun number exponent => untaken ?_
      · rw [takes, List.length_append]
        exact Nat.le_add_right ..
      · intro e failed
        refine clean e (List.mem_append_left _ ?_)
        rw [takes, List.append_assoc, List.take_left] at failed
        simp [failed]
      · have found := (Runs.lexeme takes later).itemsOnto
        rw [itemsOnto_symbol short] at found
        refine takesExponent_of_signed ?_ number short exponent found
        rw [takes, List.length_append]
        exact Nat.le_add_right ..
    have further := ih (fun e member => clean e (List.mem_append_right _ member)) fun taken =>
      untaken (taken.behind _)
    rw [List.append_assoc (text ++ rest)] at same
    rw [← same] at takes ⊢
    exact .lexeme takes further

/-- A number that takes an exponent does not stay what it was. -/
theorem TakesExponent.items_ne {g : List Char} (taken : TakesExponent p xs h g) (ys : List Item) :
    itemsOnto [] p (h ++ g) ≠ xs ++ ys := by
  intro found
  obtain ⟨head, text, rfl, signed, stands, e, exponent, rest, rfl⟩ := taken
  obtain ⟨item, last, span⟩ := Option.map_eq_some_iff.mp stands
  obtain ⟨before, rfl⟩ := List.getLast?_eq_some_iff.mp last
  -- the text is cut where the number begins
  rw [List.append_assoc before] at found
  obtain ⟨front, back, split, -, behind, -⟩ := exists_cut_behind found
  obtain ⟨gap, left, rfl, -, here, start⟩ := exists_padding_before behind
  rw [← Position.advance_append] at here start
  rw [List.append_assoc, ← List.append_assoc front] at split
  obtain ⟨rfl, rfl⟩ := append_inj_of_byteLength split
    (Nat.add_left_cancel ((congrArg Span.start span).symm.trans start))
  cases text with
  | nil => exact absurd (number_of_mantissa signed) (nil_notMem_language number)
  | cons c text =>
    have whole := number_of_signed signed (mem_opt.mpr (.inl exponent))
    rw [List.cons_append] at here whole
    obtain ⟨taken, left, same, takes, items⟩ :=
      exists_first_lexeme (p.advance (front ++ gap)) c (text ++ (e ++ rest))
    have visible : ¬ (classify c (text ++ (e ++ rest))).1.Skipped := by
      have unbroken := not_break_of_isSubsequent (number_subsequent whole c List.mem_cons_self)
      refine visible_of_first ?_ ?_
      · simp_all [isBreak]
      · rintro rfl
        cases unbroken
    rw [items] at here
    cases given : item? (p.advance (front ++ gap)) (classify c (text ++ (e ++ rest))).1
        (c :: taken) with
    | none => exact visible (skipped_of_item? given)
    | some first =>
      rw [given] at here
      obtain ⟨rfl, -⟩ := List.cons.inj here
      have stops := congrArg Span.stop ((itemSpan_of_item? given).symm.trans span)
      rw [Position.advance_append p (front ++ gap)] at stops
      obtain ⟨covered, -⟩ := append_inj_of_byteLength
        (congrArg (c :: ·) same).symm (Nat.add_left_cancel stops)
      obtain ⟨-, rfl⟩ := List.cons.inj covered
      -- with its exponent the number is longer
      have enough := (classify_reaches whole ⟨rest, List.append_assoc ..⟩).enough
      rw [takes, List.length_append] at enough
      obtain ⟨mark, _, _, -, -, -, -, rfl⟩ := mem_exponent.mp exponent
      simp at enough

end Scan
end MiniScheme
