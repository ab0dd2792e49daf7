import MiniScheme.Proofs.Number.ReadBack
import MiniScheme.Token.Scan

/-!
# Written atoms are scanned back

The written form of an atom, with a space, a closing bracket or the end of the text after it, is one
lexeme and stands for that atom. This holds of every boolean, character and string, of every finite
number, and of every symbol that was scanned from some text. Symbols made otherwise may have any
name and are not covered.
-/
namespace MiniScheme.Lexeme

/-- What stands after a written token: the end, a space or a closing bracket. -/
inductive Delimited : List Char → Prop where
  | stop : Delimited []
  | space (cs : List Char) : Delimited (' ' :: cs)
  | closing (cs : List Char) : Delimited (')' :: cs)

/-- The text, before a delimiter, is one lexeme, and it stands for a token. -/
inductive Legible : List Char → Token.Kind → Prop where
  | intro {c : Char} {cs : List Char} {lexeme : Lexeme} {kind : Token.Kind}
      (whole : ∀ rest, Delimited rest → classify c (cs ++ rest) = (lexeme, cs.length))
      (decoded : Literal.decode lexeme (c :: cs) = .ok kind) : Legible (c :: cs) kind

section

variable {rest : List Char}

/-- A run goes up to the delimiter if no delimiter belongs to it. -/
theorem runLength_append {p : Char → Bool} {cs : List Char} (all : ∀ c ∈ cs, p c)
    (space : p ' ' = false) (closing : p ')' = false) (delimited : Delimited rest) :
    runLength p (cs ++ rest) = cs.length := by
  unfold runLength
  rw [List.takeWhile_append_of_pos all]
  cases delimited with
  | stop => rw [List.takeWhile_nil, List.append_nil]
  | space => rw [List.takeWhile_cons_of_neg (by simp [space]), List.append_nil]
  | closing => rw [List.takeWhile_cons_of_neg (by simp [closing]), List.append_nil]

theorem runLength_digits {ds : List Char} (digits : ∀ d ∈ ds, d.isDigit)
    (delimited : Delimited rest) : runLength Char.isDigit (ds ++ rest) = ds.length :=
  runLength_append digits rfl rfl delimited

theorem unsignedLength_delimited (delimited : Delimited rest) : unsignedLength rest = 0 := by
  cases delimited <;> rfl

theorem exponentLength_delimited (delimited : Delimited rest) : exponentLength rest = 0 := by
  cases delimited <;> rfl

/-- A text in positional notation is a whole mantissa. -/
theorem mantissaLength_positional {cs : List Char} {coefficient : Nat} {exponent : Int}
    (shape : Number.Positional cs coefficient exponent) (delimited : Delimited rest) :
    mantissaLength (cs ++ rest) = cs.length := by
  unfold mantissaLength
  dsimp only
  cases shape with
  | whole some digits =>
    rw [runLength_digits digits delimited, List.drop_left]
    cases delimited <;> rfl
  | @point ds fs some digits fraction digits' =>
    have front : runLength Char.isDigit (ds ++ '.' :: fs ++ rest) = ds.length := by
      unfold runLength
      rw [List.append_assoc, List.takeWhile_append_of_pos digits, List.cons_append,
        List.takeWhile_cons_of_neg (by decide), List.append_nil]
    have nonzero : ds.length ≠ 0 := by
      intro zero
      exact some (List.eq_nil_of_length_eq_zero zero)
    rw [front, List.append_assoc, List.drop_left, List.cons_append]
    change (if ds.length = 0 ∧ runLength Char.isDigit (fs ++ rest) = 0 then 0
      else ds.length + 1 + runLength Char.isDigit (fs ++ rest)) = _
    rw [runLength_digits digits' delimited, if_neg (by omega)]
    simp only [List.length_append, List.length_cons]
    omega

theorem unsignedLength_positional {cs : List Char} {coefficient : Nat} {exponent : Int}
    (shape : Number.Positional cs coefficient exponent) (delimited : Delimited rest) :
    unsignedLength (cs ++ rest) = cs.length := by
  obtain ⟨d, ds, rfl, digit⟩ := shape.ne_nil
  unfold unsignedLength
  rw [mantissaLength_positional shape delimited]
  dsimp only [List.length_cons]
  rw [← List.length_cons, List.drop_left, exponentLength_delimited delimited, Nat.add_zero]

end

theorem isLayout_cases {c : Char} (layout : ¬ isLayout c = false) :
    c = ' ' ∨ c = '\t' ∨ c = '\n' ∨ c = '\r' ∨ c = '\x0c' := by
  simpa [isLayout, ← or_iff_not_imp_left] using layout

/-- No layout is legible, so a legible text is not taken for more of the layout before it. -/
theorem Legible.visible {text : List Char} {kind : Token.Kind} (legible : Legible text kind) :
    ∃ c cs, text = c :: cs ∧ isLayout c = false := by
  cases legible with
  | @intro c cs lexeme _ whole decoded =>
    refine ⟨c, cs, rfl, ?_⟩
    by_contra blank
    have skipped : lexeme = .blank := by
      have found := whole [] .stop
      obtain rfl | rfl | rfl | rfl | rfl := isLayout_cases blank
      all_goals exact (congrArg Prod.fst found).symm
    subst skipped
    cases decoded

/-- A digit begins a number and nothing else. -/
theorem classify_digit {d : Char} (digit : d.isDigit) (cs : List Char) :
    classify d cs = (.number, unsignedLength (d :: cs) - 1) := by
  have layout : isLayout d = false := by
    by_contra blank
    obtain rfl | rfl | rfl | rfl | rfl := isLayout_cases blank
    all_goals cases digit
  unfold classify
  split
  case h_12 =>
    rw [layout, digit]
    rfl
  all_goals cases digit

theorem legible_dot : Legible ['.'] .dot := by
  have whole : ∀ rest, Delimited rest → classify '.' ([] ++ rest) = (.dot, 0) := by
    intro rest delimited
    cases delimited <;> rfl
  exact .intro whole rfl

theorem legible_boolean (b : Bool) : Legible (Atom.boolean b).chars (.atom (.boolean b)) := by
  cases b
  · exact .intro (fun _ _ => rfl) rfl
  · exact .intro (fun _ _ => rfl) rfl

/-- A finite number is scanned back as itself, sign and all. -/
theorem legible_number (x : Float) (finite : x.isFinite) :
    Legible (Atom.number x).chars (.atom (.number x)) := by
  obtain ⟨cs, coefficient, exponent, text, shape, value⟩ := Number.text_of_finite x finite
  obtain ⟨d, ds, rfl, digit⟩ := shape.ne_nil
  have decoded : Literal.decode .number (Number.text x) = .ok (.atom (.number x)) := by
    unfold Literal.decode Literal.number
    rw [text, Number.ofLiteral?_positional shape]
    simp only [value]
    rfl
  have written : (Atom.number x).chars = Number.text x := rfl
  rw [written]
  rw [text] at decoded ⊢
  split at decoded
  · next negative =>
    rw [if_pos negative]
    refine .intro (fun rest delimited => ?_) decoded
    change classifyMinus (d :: ds ++ rest) = _
    unfold classifyMinus
    rw [unsignedLength_positional shape delimited]
    rfl
  · next positive =>
    rw [if_neg positive]
    refine .intro (fun rest delimited => ?_) decoded
    rw [classify_digit digit, ← List.cons_append, unsignedLength_positional shape delimited]
    rfl

theorem legible_hash {c d : Char} {name : List Char} (first : c ≠ '\n')
    (names : name.all isNameChar)
    (decoded : Literal.character ('#' :: '\\' :: c :: name) = .ok d) :
    Legible ('#' :: '\\' :: c :: name) (.atom (.character d)) := by
  have whole : ∀ rest, Delimited rest → classify '#' ('\\' :: c :: name ++ rest) =
      (.character, ('\\' :: c :: name).length) := by
    intro rest delimited
    change (if c = '\n' then (Lexeme.unknown, 0)
      else (Lexeme.character, 2 + runLength isNameChar (name ++ rest))) = _
    rw [if_neg first, runLength_append (List.all_eq_true.mp names) rfl rfl delimited, Nat.add_comm]
    rfl
  refine .intro whole ?_
  unfold Literal.decode
  rw [decoded]
  rfl

theorem characterNamed?_single (c : Char) : Atom.characterNamed? (String.ofList [c]) = none := by
  have longer : ∀ entry ∈ Atom.characterNames, entry.1.toList.length ≠ 1 := by decide
  have other : ∀ entry ∈ Atom.characterNames, ¬ (entry.1 == String.ofList [c]) = true := by
    intro entry mem same
    apply longer entry mem
    rw [eq_of_beq same, String.toList_ofList]
    rfl
  unfold Atom.characterNamed?
  rw [List.find?_eq_none.mpr other]
  rfl

/-- A character is scanned back by its name, or by itself if it has none. -/
theorem legible_character (c : Char) : Legible (Atom.character c).chars (.atom (.character c)) := by
  have written : (Atom.character c).chars = Atom.characterChars c := rfl
  rw [written]
  unfold Atom.characterChars Atom.characterName?
  cases found : Atom.characterNames.find? (·.2 == c) with
  | some entry =>
    have mem := List.mem_of_find?_eq_some found
    have same := List.find?_some found
    rw [beq_iff_eq] at same
    subst same
    simp only [Atom.characterNames, List.mem_cons, List.not_mem_nil, or_false] at mem
    obtain rfl | rfl | rfl | rfl | rfl := mem
    · exact legible_hash (by decide) rfl rfl
    · exact legible_hash (by decide) rfl rfl
    · exact legible_hash (by decide) rfl rfl
    · exact legible_hash (by decide) rfl rfl
    · exact legible_hash (by decide) rfl rfl
  | none =>
    have first : c ≠ '\n' := by
      rintro rfl
      cases found
    apply legible_hash first rfl
    have body : ['#', '\\', c].drop 2 = [c] := rfl
    simp only [Literal.character, body, characterNamed?_single]

/-- A character in a string is written as an escape for it, or as itself if the scanner takes it for
itself. -/
theorem plainEscape_cases (c : Char) :
    (∃ e, Text.plainEscape c = ['\\', e] ∧ Literal.escaped? e = some c ∧ e ≠ '\n') ∨
      (Text.plainEscape c = [c] ∧ c ≠ '"' ∧ c ≠ '\\') := by
  unfold Text.plainEscape
  split
  · exact .inl ⟨_, rfl, rfl, by decide⟩
  · exact .inl ⟨_, rfl, rfl, by decide⟩
  · exact .inl ⟨_, rfl, rfl, by decide⟩
  · exact .inl ⟨_, rfl, rfl, by decide⟩
  · exact .inl ⟨_, rfl, rfl, by decide⟩
  · next notQuote notBackslash _ _ _ => exact .inr ⟨rfl, notQuote, notBackslash⟩

theorem stringLength_escaped (cs rest : List Char) :
    stringLength (cs.flatMap Text.plainEscape ++ '"' :: rest) =
      (cs.flatMap Text.plainEscape).length + 1 := by
  induction cs with
  | nil => rfl
  | cons c cs ih =>
    rw [List.flatMap_cons, List.append_assoc, List.length_append]
    obtain ⟨e, escape, -, notNewline⟩ | ⟨itself, notQuote, notBackslash⟩ := plainEscape_cases c
    · rw [escape]
      simp only [List.cons_append, List.nil_append, stringLength, if_neg notNewline, ih,
        List.length_cons, List.length_nil]
      omega
    · rw [itself]
      simp only [List.cons_append, List.nil_append, List.length_cons, List.length_nil]
      rw [stringLength, ih]
      · omega
      · exact notQuote
      · exact fun same _ => notBackslash same
      · exact fun _ _ same _ => notBackslash same

theorem unescape_escaped (cs rest : List Char) :
    Literal.unescape (cs.flatMap Text.plainEscape ++ '"' :: rest) = .ok cs := by
  induction cs with
  | nil => rfl
  | cons c cs ih =>
    rw [List.flatMap_cons, List.append_assoc]
    obtain ⟨e, escape, back, -⟩ | ⟨itself, notQuote, notBackslash⟩ := plainEscape_cases c
    · rw [escape]
      simp only [List.cons_append, List.nil_append, Literal.unescape, back, ih]
      rfl
    · rw [itself]
      simp only [List.cons_append, List.nil_append]
      rw [Literal.unescape, ih]
      · rfl
      · exact notQuote
      · exact fun same _ => notBackslash same
      · exact fun _ _ same _ => notBackslash same

theorem legible_string (s : String) : Legible (Atom.string s).chars (.atom (.string s)) := by
  have written : (Atom.string s).chars = '"' :: (s.toList.flatMap Text.plainEscape ++ ['"']) := rfl
  rw [written]
  have whole : ∀ rest, Delimited rest →
      classify '"' (s.toList.flatMap Text.plainEscape ++ ['"'] ++ rest) =
        (.string, (s.toList.flatMap Text.plainEscape ++ ['"']).length) := by
    intro rest _
    change (Lexeme.string, stringLength _) = _
    rw [List.append_assoc, List.singleton_append, stringLength_escaped, List.length_append]
    rfl
  refine .intro whole ?_
  have contents := unescape_escaped s.toList []
  simp only [Literal.decode, List.drop_succ_cons, List.drop_zero, contents]
  simp [Except.map]

theorem not_layout_of_isInitial {c : Char} (initial : isInitial c) : isLayout c = false := by
  by_contra blank
  obtain rfl | rfl | rfl | rfl | rfl := isLayout_cases blank
  all_goals exact absurd initial (by decide)

theorem not_digit_of_isInitial {c : Char} (initial : isInitial c) : c.isDigit = false := by
  by_contra digit
  rw [Bool.not_eq_false] at digit
  have low : c.toNat < 0x41 := by
    simp only [Char.isDigit, Bool.and_eq_true, decide_eq_true_eq] at digit
    have : c.val.toNat ≤ 57 := digit.2
    have : c.toNat = c.val.toNat := rfl
    omega
  have letter : Text.isLetter c = false := by
    unfold Text.isLetter Text.letterRanges
    rw [Text.CodeRanges.holds, if_pos low]
  rw [isInitial, letter, Bool.false_or, decide_eq_true_eq] at initial
  simp only [List.mem_cons, List.not_mem_nil, or_false] at initial
  rcases initial with rfl | rfl | rfl | rfl | rfl | rfl | rfl | rfl | rfl | rfl | rfl | rfl | rfl |
    rfl <;> cases digit

/-- A character that may begin a symbol begins nothing else. -/
theorem classify_initial {c : Char} (initial : isInitial c) (cs : List Char) :
    classify c cs = (.symbol, runLength isSubsequent cs) := by
  unfold classify
  split
  case h_12 =>
    rw [not_layout_of_isInitial initial, not_digit_of_isInitial initial, initial]
    rfl
  all_goals exact absurd initial (by decide)

/-- The run of a scanned symbol is the same run when a delimiter follows. -/
theorem runLength_takeWhile (cs : List Char) {rest : List Char} (delimited : Delimited rest) :
    runLength isSubsequent (cs.take (runLength isSubsequent cs) ++ rest) =
      (cs.take (runLength isSubsequent cs)).length := by
  have front : cs.take (runLength isSubsequent cs) = cs.takeWhile isSubsequent :=
    (List.prefix_iff_eq_take.mp (List.takeWhile_prefix isSubsequent)).symm
  rw [front]
  exact runLength_append (fun c mem => List.mem_takeWhile_imp mem) rfl rfl delimited

section

variable {cs rest : List Char} {n : Nat}

theorem classifyHash_ne_symbol : classifyHash cs ≠ (.symbol, n) := by
  intro scanned
  unfold classifyHash at scanned
  split at scanned
  case h_5 => split at scanned <;> cases scanned
  all_goals cases scanned

theorem classifyDot_symbol (scanned : classifyDot cs = (.symbol, n)) :
    classifyDot (cs.take n ++ rest) = (.symbol, (cs.take n).length) := by
  unfold classifyDot at scanned
  split at scanned
  · split at scanned
    · cases scanned
      rfl
    · cases scanned
  · cases scanned

theorem classifyPlus_symbol (scanned : classifyPlus cs = (.symbol, n))
    (delimited : Delimited rest) :
    classifyPlus (cs.take n ++ rest) = (.symbol, (cs.take n).length) := by
  unfold classifyPlus at scanned
  split at scanned
  · cases scanned
    rw [List.take_zero, List.nil_append, classifyPlus, unsignedLength_delimited delimited]
    rfl
  · cases scanned

theorem classifyMinus_symbol (scanned : classifyMinus cs = (.symbol, n))
    (delimited : Delimited rest) :
    classifyMinus (cs.take n ++ rest) = (.symbol, (cs.take n).length) := by
  unfold classifyMinus at scanned
  split at scanned
  · split at scanned
    · next ds _ =>
      cases scanned
      rw [Nat.add_comm 1, List.take_succ_cons, List.cons_append, List.length_cons,
        ← runLength_takeWhile ds delimited, Nat.add_comm]
      rfl
    · cases scanned
      rw [List.take_zero, List.nil_append]
      cases delimited <;> rfl
  · cases scanned

/-- A scanned symbol is the same lexeme when a delimiter follows it. -/
theorem classify_symbol {c : Char} (scanned : classify c cs = (.symbol, n))
    (delimited : Delimited rest) :
    classify c (cs.take n ++ rest) = (.symbol, (cs.take n).length) := by
  unfold classify at scanned
  split at scanned
  case h_8 => exact absurd scanned classifyHash_ne_symbol
  case h_9 => exact classifyDot_symbol scanned
  case h_10 => exact classifyPlus_symbol scanned delimited
  case h_11 => exact classifyMinus_symbol scanned delimited
  case h_12 =>
    split at scanned
    · cases scanned
    · split at scanned
      · cases scanned
      · split at scanned
        · next initial =>
          cases scanned
          rw [classify_initial initial, runLength_takeWhile cs delimited]
        · cases scanned
  all_goals cases scanned

end

theorem decode_eq_symbol {lexeme : Lexeme} {text : List Char} {name : String}
    (decoded : Literal.decode lexeme text = .ok (.atom (.symbol name))) :
    lexeme = .symbol ∧ name = String.ofList text := by
  cases lexeme with
  | symbol =>
    cases decoded
    exact ⟨rfl, rfl⟩
  | number =>
    unfold Literal.decode at decoded
    cases value : Literal.number text <;> rw [value] at decoded <;> cases decoded
  | character =>
    unfold Literal.decode at decoded
    cases value : Literal.character text <;> rw [value] at decoded <;> cases decoded
  | string =>
    unfold Literal.decode at decoded
    cases value : Literal.unescape (text.drop 1) <;> rw [value] at decoded <;> cases decoded
  | _ => cases decoded

theorem exists_decimal_of_decode {lexeme : Lexeme} {text : List Char} {x : Float}
    (decoded : Literal.decode lexeme text = .ok (.atom (.number x))) :
    ∃ d : Number.Decimal, x = d.toFloat := by
  cases lexeme with
  | number =>
    unfold Literal.decode Literal.number at decoded
    cases literal : Number.Decimal.ofLiteral? text with
    | none =>
      rw [literal] at decoded
      cases decoded
    | some d =>
      rw [literal] at decoded
      cases decoded
      exact ⟨d, rfl⟩
  | character =>
    unfold Literal.decode at decoded
    cases value : Literal.character text <;> rw [value] at decoded <;> cases decoded
  | string =>
    unfold Literal.decode at decoded
    cases value : Literal.unescape (text.drop 1) <;> rw [value] at decoded <;> cases decoded
  | _ => cases decoded

/-- An atom that was scanned is legible as it is written, the numbers that are not finite apart. -/
theorem legible_of_scanned {c : Char} {cs : List Char} {a : Atom}
    (scanned : Literal.decode (classify c cs).1 (c :: cs.take (classify c cs).2) = .ok (.atom a))
    (finite : ∀ x, a = .number x → x.isFinite) : Legible a.chars (.atom a) := by
  cases a with
  | boolean b => exact legible_boolean b
  | number x => exact legible_number x (finite x rfl)
  | character d => exact legible_character d
  | string s => exact legible_string s
  | symbol name =>
    obtain ⟨lexeme, rfl⟩ := decode_eq_symbol scanned
    have found : classify c cs = (.symbol, (classify c cs).2) := Prod.ext lexeme rfl
    have written : (Atom.symbol (String.ofList (c :: cs.take (classify c cs).2))).chars =
        c :: cs.take (classify c cs).2 := String.toList_ofList
    rw [written]
    exact .intro (fun rest delimited => classify_symbol found delimited) rfl

end MiniScheme.Lexeme

namespace MiniScheme.Scan

open Lexeme (Delimited Legible)

theorem itemsOnto_cons (p : Position) (c : Char) (cs : List Char) :
    itemsOnto [] p (c :: cs) =
      (item? p (Lexeme.classify c cs).1 (c :: cs.take (Lexeme.classify c cs).2)).toList ++
        itemsOnto [] (p.advance (c :: cs.take (Lexeme.classify c cs).2))
          (cs.drop (Lexeme.classify c cs).2) := by
  rw [itemsOnto, itemsOnto_eq]
  cases item? p (Lexeme.classify c cs).1 (c :: cs.take (Lexeme.classify c cs).2) <;> rfl

/-- A lexeme that is decoded to a token gives that token, from its start to its end. -/
theorem item?_of_decode {lexeme : Lexeme} {text : List Char} {kind : Token.Kind} (p : Position)
    (decoded : Literal.decode lexeme text = .ok kind) :
    item? p lexeme text = some (.ok ⟨kind, ⟨p.offset, (p.advance text).offset⟩, p.line⟩) := by
  unfold item?
  split
  · cases decoded
  · cases decoded
  · rw [decoded]

/-- A lexeme in front of a text gives one token. -/
theorem itemsOnto_lexeme {c : Char} (cs : List Char) {rest : List Char} {lexeme : Lexeme}
    {kind : Token.Kind} (p : Position)
    (whole : Lexeme.classify c (cs ++ rest) = (lexeme, cs.length))
    (decoded : Literal.decode lexeme (c :: cs) = .ok kind) :
    ∃ (t : Token) (q : Position), t.kind = kind ∧
      itemsOnto [] p (c :: cs ++ rest) = .ok t :: itemsOnto [] q rest := by
  refine ⟨⟨kind, ⟨p.offset, (p.advance (c :: cs)).offset⟩, p.line⟩, p.advance (c :: cs), rfl, ?_⟩
  rw [List.cons_append, itemsOnto_cons, whole, List.take_left, List.drop_left,
    item?_of_decode p decoded]
  rfl

theorem itemsOnto_legible {text rest : List Char} {kind : Token.Kind} (p : Position)
    (legible : Legible text kind) (delimited : Delimited rest) :
    ∃ (t : Token) (q : Position), t.kind = kind ∧
      itemsOnto [] p (text ++ rest) = .ok t :: itemsOnto [] q rest := by
  cases legible with
  | intro whole decoded => exact itemsOnto_lexeme _ p (whole rest delimited) decoded

/-- A single space is skipped. -/
theorem itemsOnto_space {text : List Char} (p : Position) (rest : List Char)
    (visible : ∃ c cs, text = c :: cs ∧ Lexeme.isLayout c = false) :
    ∃ q : Position, itemsOnto [] p (' ' :: (text ++ rest)) = itemsOnto [] q (text ++ rest) := by
  obtain ⟨c, cs, rfl, notLayout⟩ := visible
  have alone : Lexeme.classify ' ' (c :: cs ++ rest) = (.blank, 0) := by
    change (Lexeme.blank, Lexeme.runLength Lexeme.isLayout (c :: (cs ++ rest))) = (Lexeme.blank, 0)
    rw [Lexeme.runLength, List.takeWhile_cons_of_neg (by simp [notLayout])]
    rfl
  refine ⟨p.advance [' '], ?_⟩
  rw [itemsOnto_cons, alone]
  rfl

/-- Every token of a text was decoded from some lexeme. -/
theorem exists_lexeme_of_mem {t : Token} {p : Position} {cs : List Char}
    (mem : .ok t ∈ itemsOnto [] p cs) :
    ∃ c ds, Literal.decode (Lexeme.classify c ds).1 (c :: ds.take (Lexeme.classify c ds).2) =
      .ok t.kind := by
  induction n : cs.length using Nat.strongRecOn generalizing p cs with
  | _ n ih =>
    cases cs with
    | nil =>
      rw [itemsOnto] at mem
      cases mem
    | cons c cs =>
      rw [itemsOnto_cons] at mem
      obtain here | later := List.mem_append.mp mem
      · refine ⟨c, cs, ?_⟩
        unfold item? at here
        split at here
        · cases here
        · cases here
        · split at here
          · next kind decoded =>
            rw [decoded]
            simp only [Option.toList_some, List.mem_singleton, Except.ok.injEq] at here
            rw [here]
          · simp at here
      · refine ih _ ?_ later rfl
        rw [List.length_drop, ← n, List.length_cons]
        omega

end MiniScheme.Scan
