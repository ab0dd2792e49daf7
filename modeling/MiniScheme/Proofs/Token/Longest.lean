import MiniScheme.Proofs.Token.Legible
import MiniScheme.Proofs.Token.Pattern

/-!
# The classified lexeme is the longest match

The lengths that `classify` puts together (runs, numbers, the rest of a string) are each the length
of the longest start that their pattern matches. From this, what is classified after a character
matches the pattern of its class, and no start of the text that any pattern matches goes further. A
start that goes as far is of the same class, so no text has two classes.
-/
namespace MiniScheme.Lexeme

open Pattern

/-- `n` is the length of the longest start of a text that is in a language, or zero if there is no
start but the empty one. -/
structure Longest (language : Language Char) (cs : List Char) (n : Nat) : Prop where
  found : n = 0 ∨ ∃ text ∈ language, text <+: cs ∧ text.length = n
  greatest : ∀ text ∈ language, text <+: cs → text.length ≤ n

section Runs

variable {p : Char → Bool} {cs ds rest : List Char} {c : Char}

/-- A text is a run and what stops it. -/
theorem exists_run (p : Char → Bool) (cs : List Char) :
    ∃ run rest, cs = run ++ rest ∧ run.length = runLength p cs ∧ ∀ c ∈ run, p c :=
  ⟨cs.takeWhile p, cs.dropWhile p, List.takeWhile_append_dropWhile.symm, rfl,
    fun _ member => List.mem_takeWhile_imp member⟩

theorem length_le_runLength (all : ∀ c ∈ ds, p c) (starts : ds <+: cs) :
    ds.length ≤ runLength p cs := by
  obtain ⟨rest, rfl⟩ := starts
  rw [runLength, List.takeWhile_append_of_pos all, List.length_append]
  exact Nat.le_add_right _ _

theorem runLength_append_cons (all : ∀ d ∈ ds, p d) (stops : p c = false) :
    runLength p (ds ++ c :: rest) = ds.length := by
  rw [runLength, List.takeWhile_append_of_pos all,
    List.takeWhile_cons_of_neg (by rw [stops]; exact Bool.false_ne_true), List.append_nil]

end Runs

section Numbers

variable {cs text : List Char}

theorem runLength_le_mantissaLength : runLength Char.isDigit cs ≤ mantissaLength cs := by
  fun_cases mantissaLength cs <;> omega

theorem mantissaLength_point {whole rest : List Char} (digits : ∀ d ∈ whole, d.isDigit) :
    mantissaLength (whole ++ '.' :: rest) =
      if whole.length = 0 ∧ runLength Char.isDigit rest = 0 then 0
      else whole.length + 1 + runLength Char.isDigit rest := by
  unfold mantissaLength
  dsimp only
  rw [runLength_append_cons digits rfl, List.drop_left]
  rfl

theorem longest_mantissa (cs : List Char) : Longest mantissa.language cs (mantissaLength cs) where
  found := by
    obtain ⟨run, rest, split, length, digits⟩ := exists_run Char.isDigit cs
    fun_cases mantissaLength cs with
    | case1 => exact .inl rfl
    | case2 whole ds point fraction some =>
      obtain ⟨run', rest', split', length', digits'⟩ := exists_run Char.isDigit ds
      have front : run.length = whole := length
      have back : run'.length = fraction := length'
      have same : rest = '.' :: ds := by
        rw [← point, split, ← front, List.drop_left]
      refine .inr ⟨run ++ '.' :: run', ?_, ⟨rest', ?_⟩, ?_⟩
      · refine mem_mantissa.mpr (.inr ⟨run, run', ?_, digits, digits', rfl⟩)
        rw [← List.length_eq_zero_iff, ← List.length_eq_zero_iff, front, back]
        exact some
      · rw [split, same, split', List.append_assoc, List.cons_append]
      · rw [List.length_append, List.length_cons, front, back]
        omega
    | case3 whole alone =>
      by_cases none : run = []
      · subst none
        exact .inl length.symm
      · exact .inr ⟨run, mem_mantissa.mpr (.inl ⟨none, digits⟩), ⟨rest, split.symm⟩, length⟩
  greatest := by
    intro text matched starts
    obtain ⟨-, digits⟩ | ⟨whole, fraction, some, digits, digits', rfl⟩ := mem_mantissa.mp matched
    · exact (length_le_runLength digits starts).trans runLength_le_mantissaLength
    · obtain ⟨rest, rfl⟩ := starts
      have longer : fraction.length ≤ runLength Char.isDigit (fraction ++ rest) :=
        length_le_runLength digits' (List.prefix_append _ _)
      rw [List.append_assoc, List.cons_append, mantissaLength_point digits, if_neg]
      · simp only [List.length_append, List.length_cons]
        omega
      · rw [← List.length_eq_zero_iff, ← List.length_eq_zero_iff] at some
        omega

theorem exponentLength_complete {mark : Char} {sign digits rest : List Char}
    (marks : mark = 'e' ∨ mark = 'E') (signs : sign = [] ∨ sign = ['-'] ∨ sign = ['+'])
    (some : digits ≠ []) (all : ∀ d ∈ digits, d.isDigit) :
    exponentLength (mark :: (sign ++ (digits ++ rest))) =
      1 + sign.length + runLength Char.isDigit (digits ++ rest) := by
  obtain ⟨d, ds, rfl⟩ := List.exists_cons_of_ne_nil some
  have digit : d.isDigit := all d List.mem_cons_self
  obtain ⟨n, length⟩ : ∃ n, runLength Char.isDigit (d :: (ds ++ rest)) = n + 1 := by
    rw [runLength, List.takeWhile_cons_of_pos digit]
    exact ⟨_, rfl⟩
  have unsigned : d ≠ '+' ∧ d ≠ '-' := by
    constructor
    all_goals
      rintro rfl
      cases digit
  obtain rfl | rfl | rfl := signs
  · simp [exponentLength, marks, unsigned, length]
  · simp [exponentLength, marks, length]
  · simp [exponentLength, marks, length]

theorem longest_exponent (cs : List Char) : Longest exponent.language cs (exponentLength cs) where
  found := by
    fun_cases exponentLength cs with
    | case1 => exact .inl rfl
    | case2 => exact .inl rfl
    | case3 mark cs marks signLength n length =>
      obtain ⟨run, rest, split, length', digits⟩ := exists_run Char.isDigit (cs.drop signLength)
      obtain ⟨sign, signs, front, width⟩ : ∃ sign, (sign = [] ∨ sign = ['-'] ∨ sign = ['+']) ∧
          cs = sign ++ cs.drop signLength ∧ sign.length = signLength := by
        subst signLength
        split
        · exact ⟨['+'], .inr (.inr rfl), rfl, rfl⟩
        · exact ⟨['-'], .inr (.inl rfl), rfl, rfl⟩
        · exact ⟨[], .inl rfl, rfl, rfl⟩
      have some : run ≠ [] := by
        rintro rfl
        rw [length] at length'
        cases length'
      refine .inr ⟨mark :: (sign ++ run), ?_, ⟨rest, ?_⟩, ?_⟩
      · exact mem_exponent.mpr ⟨mark, sign, run, marks, signs, some, digits, rfl⟩
      · rw [List.cons_append, List.append_assoc, ← split, ← front]
      · rw [List.length_cons, List.length_append, length', length, width]
        omega
    | case4 => exact .inl rfl
  greatest := by
    intro text matched starts
    obtain ⟨mark, sign, digits, marks, signs, some, all, rfl⟩ := mem_exponent.mp matched
    obtain ⟨rest, rfl⟩ := starts
    have longer : digits.length ≤ runLength Char.isDigit (digits ++ rest) :=
      length_le_runLength all (List.prefix_append _ _)
    rw [List.cons_append, List.append_assoc, exponentLength_complete marks signs some all,
      List.length_cons, List.length_append]
    omega

theorem unsignedLength_eq (cs : List Char) (some : mantissaLength cs ≠ 0) :
    unsignedLength cs = mantissaLength cs + exponentLength (cs.drop (mantissaLength cs)) := by
  unfold unsignedLength
  split
  · next none => exact absurd none some
  · next length => rw [length]

/-- An exponent can only follow the longest mantissa: its mark is no part of one. -/
theorem mantissa_ends {front back rest : List Char} (mantissa : front ∈ mantissa.language)
    (exponent : back ∈ exponent.language) :
    mantissaLength (front ++ (back ++ rest)) = front.length := by
  have longest := longest_mantissa (front ++ (back ++ rest))
  have most := longest.greatest front mantissa (List.prefix_append _ _)
  obtain none | ⟨text, matched, starts, length⟩ := longest.found
  · omega
  · by_contra longer
    -- a longer mantissa would have the mark of the exponent in it
    obtain ⟨mark, sign, digits, marks, -, -, -, rfl⟩ := mem_exponent.mp exponent
    obtain ⟨more, rfl⟩ : front <+: text :=
      List.prefix_of_prefix_length_le (List.prefix_append _ _) starts (length ▸ most)
    rw [List.prefix_append_right_inj] at starts
    obtain _ | ⟨c, more⟩ := more
    · rw [List.append_nil] at length
      exact longer length.symm
    · obtain ⟨rfl, -⟩ := List.cons_prefix_cons.mp starts
      have inside := (mantissa_chars matched).2 c (by simp)
      obtain rfl | rfl := marks
      · exact absurd inside (by decide)
      · exact absurd inside (by decide)

theorem longest_unsigned (cs : List Char) : Longest unsigned.language cs (unsignedLength cs) where
  found := by
    obtain none | ⟨front, mantissa, ⟨rest, rfl⟩, length⟩ := (longest_mantissa cs).found
    · left
      unfold unsignedLength
      rw [none]
    · have some : mantissaLength (front ++ rest) ≠ 0 := by
        rw [← length]
        exact mt List.length_eq_zero_iff.mp (mantissa_chars mantissa).1
      rw [unsignedLength_eq _ some, ← length, List.drop_left]
      obtain none | ⟨back, exponent, ⟨rest, rfl⟩, length'⟩ := (longest_exponent rest).found
      · have matched : front ∈ unsigned.language :=
          mem_seq.mpr ⟨front, mantissa, [], .inr rfl, List.append_nil front⟩
        rw [none]
        exact .inr ⟨front, matched, List.prefix_append _ _, rfl⟩
      · have matched : front ++ back ∈ unsigned.language :=
          mem_seq.mpr ⟨front, mantissa, back, .inl exponent, rfl⟩
        rw [← length', ← List.append_assoc]
        exact .inr ⟨front ++ back, matched, List.prefix_append _ _, List.length_append⟩
  greatest := by
    intro text matched starts
    obtain ⟨front, mantissa, back, exponent, rfl⟩ := mem_seq.mp matched
    obtain ⟨rest, rfl⟩ := starts
    rw [List.append_assoc, List.length_append]
    have most := (longest_mantissa (front ++ (back ++ rest))).greatest front mantissa
      (List.prefix_append _ _)
    have some : front.length ≠ 0 := mt List.length_eq_zero_iff.mp (mantissa_chars mantissa).1
    rw [unsignedLength_eq _ (by omega)]
    obtain exponent | rfl := mem_opt.mp exponent
    · rw [mantissa_ends mantissa exponent, List.drop_left]
      have := (longest_exponent (back ++ rest)).greatest back exponent (List.prefix_append _ _)
      omega
    · rw [List.length_nil]
      omega

theorem length_le_unsignedLength (mantissa : text ∈ mantissa.language) (starts : text <+: cs) :
    text.length ≤ unsignedLength cs := by
  have matched : text ∈ unsigned.language :=
    mem_seq.mpr ⟨text, mantissa, [], .inr rfl, List.append_nil text⟩
  exact (longest_unsigned cs).greatest text matched starts

theorem unsignedLength_digit {d : Char} (digit : d.isDigit) : 0 < unsignedLength (d :: cs) := by
  have mantissa : [d] ∈ mantissa.language :=
    mem_mantissa.mpr (.inl ⟨List.cons_ne_nil d [], by simpa using digit⟩)
  exact length_le_unsignedLength mantissa ⟨cs, rfl⟩

theorem unsignedLength_point (digit : runLength Char.isDigit cs ≠ 0) :
    1 < unsignedLength ('.' :: cs) := by
  obtain ⟨digits, rest, rfl, length, all⟩ := exists_run Char.isDigit cs
  have mantissa : '.' :: digits ∈ mantissa.language := by
    refine mem_mantissa.mpr (.inr ⟨[], digits, ?_, by simp, all, rfl⟩)
    rintro ⟨-, rfl⟩
    exact digit length.symm
  have longer := length_le_unsignedLength mantissa (List.prefix_append _ rest)
  rw [List.length_cons, length, List.cons_append] at longer
  omega

end Numbers

section Strings

theorem exists_stringTail (cs : List Char) :
    ∃ text ∈ stringTail.language, text <+: cs ∧ text.length = stringLength cs := by
  have none : [] ∈ stringTail.language := mem_stringTail.mpr (.inl (.inr rfl))
  fun_induction stringLength cs with
  | case1 => exact ⟨[], none, List.nil_prefix, rfl⟩
  | case2 cs => exact ⟨['"'], mem_stringTail.mpr (.inl (.inl rfl)), ⟨cs, rfl⟩, rfl⟩
  | case3 => exact ⟨[], none, List.nil_prefix, rfl⟩
  | case4 cs => exact ⟨[], none, List.nil_prefix, rfl⟩
  | case5 c cs escaped ih =>
    obtain ⟨text, matched, starts, length⟩ := ih
    refine ⟨'\\' :: c :: text, ?_, ?_, ?_⟩
    · exact mem_stringTail.mpr (.inr (.inr ⟨c, text, escaped, matched, rfl⟩))
    · simpa using starts
    · simp only [List.length_cons, length]
      omega
  | case6 c cs quote last backslash ih =>
    obtain ⟨text, matched, starts, length⟩ := ih
    have plain : c ≠ '"' ∧ c ≠ '\\' := by
      refine ⟨quote, ?_⟩
      rintro rfl
      cases cs with
      | nil => exact last rfl rfl
      | cons d ds => exact backslash d ds rfl rfl
    refine ⟨c :: text, ?_, ?_, ?_⟩
    · exact mem_stringTail.mpr (.inr (.inl ⟨c, text, plain, matched, rfl⟩))
    · simpa using starts
    · simp only [List.length_cons, length]
      omega

theorem stringLength_plain {c : Char} (cs : List Char) (plain : c ≠ '"' ∧ c ≠ '\\') :
    stringLength (c :: cs) = 1 + stringLength cs := by
  rw [stringLength]
  · exact plain.1
  · exact fun backslash _ => plain.2 backslash
  · exact fun _ _ backslash _ => plain.2 backslash

theorem longest_stringTail (cs : List Char) :
    Longest stringTail.language cs (stringLength cs) where
  found := .inr (exists_stringTail cs)
  greatest := by
    intro text matched starts
    obtain ⟨after, rfl⟩ := starts
    induction length : text.length using Nat.strongRecOn generalizing text with
    | _ n ih =>
      obtain (rfl | rfl) | ⟨c, rest, plain, more, rfl⟩ | ⟨c, rest, escaped, more, rfl⟩ :=
        mem_stringTail.mp matched
      · exact length.symm.le
      · rw [← length]
        exact Nat.zero_le _
      · have shorter := ih rest.length (by simp [← length]) rest more rfl
        rw [List.cons_append, stringLength_plain _ plain, ← length, List.length_cons]
        omega
      · have shorter := ih rest.length (by simp [← length]) rest more rfl
        rw [List.cons_append, List.cons_append, stringLength, if_neg escaped, ← length,
          List.length_cons, List.length_cons]
        omega

end Strings

section Found

variable {c : Char} {cs text : List Char} {k : Lexeme}

/-- What may be found after `c`: the rest of a lexeme, or nothing where no class is known. -/
inductive Fits (c : Char) (cs : List Char) : Lexeme × Nat → Prop where
  | lexeme {k : Lexeme} {text : List Char} {n : Nat} (matched : c :: text ∈ k.language)
      (starts : text <+: cs) (length : text.length = n) : Fits c cs (k, n)
  | nothing : Fits c cs (.unknown, 0)

theorem Fits.alone (matched : [c] ∈ k.language) : Fits c cs (k, 0) :=
  .lexeme matched List.nil_prefix rfl

theorem Fits.run {p : Char → Bool} (c : Char) (cs : List Char)
    (matched : ∀ text, (∀ d ∈ text, p d) → c :: text ∈ k.language) :
    Fits c cs (k, runLength p cs) := by
  obtain ⟨text, rest, rfl, length, all⟩ := exists_run p cs
  exact .lexeme (matched text all) (List.prefix_append _ _) length

/-- A number whose first character has been read. -/
theorem Fits.unsigned (some : unsignedLength (c :: cs) ≠ 0) :
    Fits c cs (.number, unsignedLength (c :: cs) - 1) := by
  obtain none | ⟨text, matched, starts, length⟩ := (longest_unsigned (c :: cs)).found
  · exact absurd none some
  · cases text with
    | nil => exact absurd length.symm some
    | cons d text =>
      obtain ⟨rfl, starts'⟩ := List.cons_prefix_cons.mp starts
      exact .lexeme (mem_number.mpr (.inl matched)) starts' (by rw [← length]; rfl)

/-- A number whose sign has been read. -/
theorem Fits.signed {n : Nat} (signs : c = '-' ∨ c = '+') (length : unsignedLength cs = n)
    (some : n ≠ 0) : Fits c cs (.number, n) := by
  obtain none | ⟨text, matched, starts, length'⟩ := (longest_unsigned cs).found
  · exact absurd (length.symm.trans none) some
  · exact .lexeme (mem_number.mpr (.inr ⟨c, text, signs, matched, rfl⟩)) starts
      (length'.trans length)

theorem classifyHash_fits : Fits '#' cs (classifyHash cs) := by
  fun_cases classifyHash cs with
  | case1 cs => exact .lexeme (.inl (mem_literal.mpr rfl)) ⟨cs, rfl⟩ rfl
  | case2 cs => exact .lexeme (.inr (mem_literal.mpr rfl)) ⟨cs, rfl⟩ rfl
  | case3 cs => exact .lexeme (.inl (mem_literal.mpr rfl)) ⟨cs, rfl⟩ rfl
  | case4 cs => exact .lexeme (.inr (mem_literal.mpr rfl)) ⟨cs, rfl⟩ rfl
  | case5 => exact .nothing
  | case6 c cs first =>
    obtain ⟨text, rest, rfl, length, names⟩ := exists_run isNameChar cs
    refine .lexeme (mem_character.mpr ⟨c, text, first, names, rfl⟩) ⟨rest, rfl⟩ ?_
    rw [← length, List.length_cons, List.length_cons]
    omega
  | case7 => exact .nothing

theorem classifyDot_fits : Fits '.' cs (classifyDot cs) := by
  fun_cases classifyDot cs with
  | case1 cs none =>
    exact .lexeme (mem_symbol.mpr (.inr (.inr (.inr (.inl rfl))))) ⟨cs, rfl⟩ rfl
  | case2 cs none other => exact .alone (mem_char.mpr rfl)
  | case3 cs digit => exact .unsigned (Nat.ne_zero_of_lt (unsignedLength_point digit))

theorem classifyPlus_fits : Fits '+' cs (classifyPlus cs) := by
  fun_cases classifyPlus cs with
  | case1 none => exact .alone (mem_symbol.mpr (.inr (.inl rfl)))
  | case2 some => exact .signed (.inr rfl) rfl some

theorem classifyMinus_fits : Fits '-' cs (classifyMinus cs) := by
  fun_cases classifyMinus cs with
  | case1 cs none =>
    obtain ⟨text, rest, rfl, length, all⟩ := exists_run isSubsequent cs
    have matched : '-' :: '>' :: text ∈ symbol.language :=
      mem_symbol.mpr (.inr (.inr (.inr (.inr ⟨text, all, rfl⟩))))
    refine .lexeme matched ⟨rest, rfl⟩ ?_
    rw [List.length_cons, length, Nat.add_comm]
  | case2 cs none other => exact .alone (mem_symbol.mpr (.inr (.inr (.inl rfl))))
  | case3 cs some => exact .signed (.inl rfl) rfl some

/-- What the scanner classifies matches the pattern of its class. -/
theorem classify_fits (c : Char) (cs : List Char) : Fits c cs (classify c cs) := by
  fun_cases classify c cs with
  | case1 => exact .run ';' cs fun text all => mem_char_seq.mpr ⟨text, mem_star_one.mpr all, rfl⟩
  | case2 | case3 | case4 | case5 | case6 => exact .alone (mem_char.mpr rfl)
  | case7 =>
    obtain ⟨text, matched, starts, length⟩ := exists_stringTail cs
    exact .lexeme (mem_char_seq.mpr ⟨text, matched, rfl⟩) starts length
  | case8 => exact classifyHash_fits
  | case9 => exact classifyDot_fits
  | case10 => exact classifyPlus_fits
  | case11 => exact classifyMinus_fits
  | case12 =>
    have layout : isLayout c := by assumption
    refine .run c cs fun text all => mem_plus_one.mpr ⟨List.cons_ne_nil c text, ?_⟩
    exact List.forall_mem_cons.mpr ⟨layout, all⟩
  | case13 =>
    have digit : c.isDigit := by assumption
    exact .unsigned (Nat.ne_zero_of_lt (unsignedLength_digit digit))
  | case14 =>
    have initial : isInitial c := by assumption
    exact .run c cs fun text all => mem_symbol.mpr (.inl ⟨c, text, initial, all, rfl⟩)
  | case15 => exact .nothing

/-- What was found after a character goes at least as far as a lexeme of the class `k` with `n` more
characters, and is of that class if it goes no further. -/
structure Reaches (k : Lexeme) (n : Nat) (found : Lexeme × Nat) : Prop where
  known : found.1 ≠ .unknown
  enough : n ≤ found.2
  same : found.2 ≤ n → found.1 = k

theorem Reaches.of_same {n m : Nat} (known : k ≠ .unknown) (enough : n ≤ m) : Reaches k n (k, m) :=
  ⟨known, enough, fun _ => rfl⟩

theorem Reaches.of_longer {k' : Lexeme} {n m : Nat} (known : k' ≠ .unknown) (longer : n < m) :
    Reaches k n (k', m) :=
  ⟨known, longer.le, fun shorter => absurd longer (Nat.not_lt.mpr shorter)⟩

theorem classify_layout (layout : isLayout c) (cs : List Char) :
    classify c cs = (.blank, runLength isLayout cs) := by
  have blank : ¬ isLayout c = false := by simp [layout]
  obtain rfl | rfl | rfl | rfl | rfl := isLayout_cases blank
  all_goals rfl

theorem classifyPlus_number (some : unsignedLength cs ≠ 0) :
    classifyPlus cs = (.number, unsignedLength cs) := by
  fun_cases classifyPlus cs with
  | case1 none => exact absurd none some
  | case2 => rfl

theorem classifyMinus_number (some : unsignedLength cs ≠ 0) :
    classifyMinus cs = (.number, unsignedLength cs) := by
  fun_cases classifyMinus cs with
  | case1 ds none => exact absurd none some
  | case2 cs none other => exact absurd none some
  | case3 => rfl

theorem number_reaches (matched : c :: text ∈ number.language) (starts : text <+: cs) :
    Reaches .number text.length (classify c cs) := by
  obtain matched | ⟨sign, rest, signs, matched, same⟩ := mem_number.mp matched
  · have most := (longest_unsigned (c :: cs)).greatest _ matched
      (List.cons_prefix_cons.mpr ⟨rfl, starts⟩)
    have found : classify c cs = (.number, unsignedLength (c :: cs) - 1) := by
      obtain ⟨_, _, same, digit | ⟨rfl, d, ds, rfl, digit⟩⟩ := unsigned_starts matched
      · cases same
        exact classify_digit digit cs
      · cases same
        obtain ⟨after, rfl⟩ := starts
        have some : runLength Char.isDigit (d :: ds ++ after) ≠ 0 := by
          rw [List.cons_append, runLength, List.takeWhile_cons_of_pos digit, List.length_cons]
          exact Nat.succ_ne_zero _
        exact if_neg some
    rw [found]
    exact .of_same (by decide) (Nat.le_sub_one_of_lt most)
  · cases same
    have most := (longest_unsigned cs).greatest _ matched starts
    have some : unsignedLength cs ≠ 0 := by
      obtain ⟨d, ds, rfl, -⟩ := unsigned_starts matched
      exact Nat.ne_zero_of_lt most
    have found : classify c cs = (.number, unsignedLength cs) := by
      obtain rfl | rfl := signs
      · exact classifyMinus_number some
      · exact classifyPlus_number some
    rw [found]
    exact .of_same (by decide) most

theorem symbol_reaches (matched : c :: text ∈ symbol.language) (starts : text <+: cs) :
    Reaches .symbol text.length (classify c cs) := by
  obtain ⟨_, _, initial, all, same⟩ | same | same | same | ⟨rest, all, same⟩ :=
    mem_symbol.mp matched
  · cases same
    rw [classify_initial initial]
    exact .of_same (by decide) (length_le_runLength all starts)
  · cases same
    change Reaches _ _ (classifyPlus cs)
    fun_cases classifyPlus cs with
    | case1 none => exact .of_same (by decide) (Nat.zero_le _)
    | case2 some => exact .of_longer (by decide) (Nat.pos_of_ne_zero some)
  · cases same
    change Reaches _ _ (classifyMinus cs)
    fun_cases classifyMinus cs with
    | case1 ds none => exact .of_same (by decide) (Nat.zero_le _)
    | case2 cs none => exact .of_same (by decide) (Nat.zero_le _)
    | case3 cs some => exact .of_longer (by decide) (Nat.pos_of_ne_zero some)
  · cases same
    obtain ⟨after, rfl⟩ := starts
    exact .of_same (by decide) (Nat.le_refl _)
  · cases same
    obtain ⟨after, rfl⟩ := starts
    have most := length_le_runLength all (List.prefix_append rest after)
    change Reaches _ _ (.symbol, 1 + runLength isSubsequent (rest ++ after))
    refine .of_same (by decide) ?_
    rw [List.length_cons]
    omega

theorem character_reaches (matched : c :: text ∈ character.language) (starts : text <+: cs) :
    Reaches .character text.length (classify c cs) := by
  obtain ⟨d, rest, first, names, same⟩ := mem_character.mp matched
  cases same
  obtain ⟨after, rfl⟩ := starts
  have most := length_le_runLength names (List.prefix_append rest after)
  have found : classifyHash ('\\' :: d :: (rest ++ after)) =
      (.character, 2 + runLength isNameChar (rest ++ after)) := if_neg first
  change Reaches _ _ (classifyHash ('\\' :: d :: (rest ++ after)))
  rw [found]
  refine .of_same (by decide) ?_
  simp only [List.length_cons]
  omega

/-- A point alone is the least that is found where a point stands. -/
theorem dot_reaches (cs : List Char) : Reaches .dot 0 (classifyDot cs) := by
  fun_cases classifyDot cs with
  | case1 cs => exact .of_longer (by decide) (by decide)
  | case2 => exact .of_same (by decide) (Nat.le_refl _)
  | case3 cs digit =>
    exact .of_longer (by decide) (Nat.sub_pos_of_lt (unsignedLength_point digit))

/-- Nothing that a pattern matches goes further than what the scanner classifies. -/
theorem classify_reaches (matched : c :: text ∈ k.language) (starts : text <+: cs) :
    Reaches k text.length (classify c cs) := by
  cases k with
  | blank =>
    obtain ⟨-, layout⟩ := mem_plus_one.mp matched
    rw [List.forall_mem_cons] at layout
    rw [classify_layout layout.1]
    exact .of_same (by decide) (length_le_runLength layout.2 starts)
  | comment =>
    obtain ⟨_, all, same⟩ := mem_char_seq.mp matched
    cases same
    exact .of_same (by decide) (length_le_runLength (mem_star_one.mp all) starts)
  | opener b | closer b =>
    cases mem_char.mp matched
    cases b
    all_goals exact .of_same (by decide) (Nat.le_refl _)
  | dot =>
    cases mem_char.mp matched
    exact dot_reaches cs
  | quote =>
    cases mem_char.mp matched
    exact .of_same (by decide) (Nat.le_refl _)
  | boolean b =>
    obtain ⟨after, rfl⟩ := starts
    cases b
    all_goals
      obtain same | same := matched
      all_goals
        cases mem_literal.mp same
        exact .of_same (by decide) (Nat.le_refl _)
  | number => exact number_reaches matched starts
  | character => exact character_reaches matched starts
  | string =>
    obtain ⟨_, tail, same⟩ := mem_char_seq.mp matched
    cases same
    exact .of_same (by decide) ((longest_stringTail cs).greatest text tail starts)
  | symbol => exact symbol_reaches matched starts
  | unknown => exact absurd matched mem_never.mp

theorem Fits.inside {found : Lexeme × Nat} (fits : Fits c cs found) : found.2 ≤ cs.length := by
  cases fits with
  | lexeme matched starts length =>
    subst length
    exact starts.length_le
  | nothing => exact Nat.zero_le _

/-- No text is matched by the patterns of two classes. -/
theorem eq_of_mem_language {k' : Lexeme} (matched : text ∈ k.language)
    (matched' : text ∈ k'.language) : k = k' := by
  cases text with
  | nil => exact absurd matched (nil_notMem_language k)
  | cons c text =>
    -- with nothing after the text, what is classified goes no further than the text itself
    have all := (classify_fits c text).inside
    have first := (classify_reaches matched List.prefix_rfl).same all
    have second := (classify_reaches matched' List.prefix_rfl).same all
    rw [← first, second]

/-- A start that some pattern matches is no longer than what the scanner classifies. -/
theorem length_le_of_declared {after : List Char} (matched : after ∈ declared)
    (starts : after <+: c :: cs) :
    (classify c cs).1 ≠ .unknown ∧ after.length ≤ (classify c cs).2 + 1 := by
  obtain ⟨k, matched⟩ := mem_declared.mp matched
  cases after with
  | nil => exact absurd matched (nil_notMem_language k)
  | cons d text =>
    obtain ⟨rfl, starts'⟩ := List.cons_prefix_cons.mp starts
    have reaches := classify_reaches matched starts'
    exact ⟨reaches.known, Nat.succ_le_succ reaches.enough⟩

/-- What the scanner classifies is the longest start that any pattern matches. -/
theorem classify_longest (known : (classify c cs).1 ≠ .unknown) :
    c :: cs.take (classify c cs).2 ∈ (classify c cs).1.language ∧
      Longest declared (c :: cs) (c :: cs.take (classify c cs).2).length := by
  have inside := (classify_fits c cs).inside
  have matched : c :: cs.take (classify c cs).2 ∈ (classify c cs).1.language := by
    have fits := classify_fits c cs
    generalize classify c cs = found at fits known
    cases fits with
    | lexeme matched starts length =>
      subst length
      rw [← List.prefix_iff_eq_take.mp starts]
      exact matched
    | nothing => exact absurd rfl known
  refine ⟨matched, .inr ⟨_, mem_declared.mpr ⟨_, matched⟩, ?_, rfl⟩, ?_⟩
  · exact List.cons_prefix_cons.mpr ⟨rfl, List.take_prefix _ _⟩
  · intro text matched starts
    rw [List.length_cons, List.length_take_of_le inside]
    exact (length_le_of_declared matched starts).2

/-- Where the scanner classifies nothing, no pattern matches. -/
theorem classify_unknown (unknown : (classify c cs).1 = .unknown) :
    (classify c cs).2 = 0 ∧ Longest declared (c :: cs) 0 := by
  have zero : (classify c cs).2 = 0 := by
    have fits := classify_fits c cs
    generalize classify c cs = found at fits unknown
    cases fits with
    | lexeme matched starts length =>
      cases unknown
      cases matched
    | nothing => rfl
  refine ⟨zero, .inl rfl, fun text matched starts => ?_⟩
  exact absurd unknown (length_le_of_declared matched starts).1

end Found

end MiniScheme.Lexeme
