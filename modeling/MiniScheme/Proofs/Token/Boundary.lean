import MiniScheme.Proofs.Token.Longest

/-!
# Where lexemes end

Layout, brackets, double quotes and semicolons are breaks: they are in no lexeme but strings,
comments, the lexemes that begin with them, and a character literal right after its two marks. A
newline is in still fewer lexemes, layout and strings only. So two texts with a newline between them
are scanned one after the other, whatever they end and begin with, if the first has no lexical error
(`itemsOnto_join`): a string that is not closed would go on in the second text, but it is an error.
-/
namespace MiniScheme.Lexeme

open Pattern

/-- The brackets, and the characters that begin strings and comments. -/
def isDelimiter (c : Char) : Bool :=
  c ∈ ['(', ')', '[', ']', '"', ';']

/-- The characters at which numbers, symbols, booleans, dots and quote marks end. -/
def isBreak (c : Char) : Bool :=
  isLayout c || isDelimiter c

/-- The classes of lexemes that have no break in them. -/
def Plain : Lexeme → Prop
  | .dot | .quote | .boolean _ | .number | .symbol => True
  | _ => False

section Breaks

variable {c : Char} {text cs ds : List Char} {k : Lexeme}

/-- No break may follow in a symbol. -/
theorem not_break_of_isSubsequent (subsequent : isSubsequent c) : isBreak c = false := by
  have breaks : [' ', '\t', '\n', '\r', '\x0c', '(', ')', '[', ']', '"', ';'].all
      (!isSubsequent ·) := rfl
  by_contra broken
  have member : c ∈ [' ', '\t', '\n', '\r', '\x0c', '(', ')', '[', ']', '"', ';'] := by
    simpa [isBreak, isLayout, isDelimiter, ← or_iff_not_imp_left] using broken
  simpa [subsequent] using List.all_eq_true.mp breaks c member

theorem isSubsequent_of_isDigit (digit : c.isDigit) : isSubsequent c := by
  simp [isSubsequent, digit]

theorem isSubsequent_of_isInitial (initial : isInitial c) : isSubsequent c := by
  simp [isSubsequent, initial]

/-- The characters of a mantissa may all follow in a symbol. -/
theorem mantissa_subsequent (matched : text ∈ mantissa.language) : ∀ c ∈ text, isSubsequent c := by
  intro c member
  obtain digit | rfl := (mantissa_chars matched).2 c member
  · exact isSubsequent_of_isDigit digit
  · rfl

theorem exponent_subsequent (matched : text ∈ exponent.language) : ∀ c ∈ text, isSubsequent c := by
  obtain ⟨mark, sign, digits, marks, signs, -, all, rfl⟩ := mem_exponent.mp matched
  have first : isSubsequent mark := by
    obtain rfl | rfl := marks <;> rfl
  have second : sign.all isSubsequent := by
    obtain rfl | rfl | rfl := signs <;> rfl
  refine List.forall_mem_cons.mpr
    ⟨first, List.forall_mem_append.mpr ⟨List.all_eq_true.mp second, ?_⟩⟩
  exact fun d member => isSubsequent_of_isDigit (all d member)

theorem unsigned_subsequent (matched : text ∈ unsigned.language) : ∀ c ∈ text, isSubsequent c := by
  obtain ⟨front, mantissa, back, exponent, rfl⟩ := mem_seq.mp matched
  refine List.forall_mem_append.mpr ⟨mantissa_subsequent mantissa, ?_⟩
  obtain exponent | rfl := mem_opt.mp exponent
  · exact exponent_subsequent exponent
  · simp

theorem number_subsequent (matched : text ∈ number.language) : ∀ c ∈ text, isSubsequent c := by
  obtain unsigned | ⟨sign, rest, signs, unsigned, rfl⟩ := mem_number.mp matched
  · exact unsigned_subsequent unsigned
  · refine List.forall_mem_cons.mpr ⟨?_, unsigned_subsequent unsigned⟩
    obtain rfl | rfl := signs <;> rfl

theorem symbol_subsequent (matched : text ∈ symbol.language) : ∀ c ∈ text, isSubsequent c := by
  obtain ⟨c, rest, initial, all, rfl⟩ | rfl | rfl | rfl | ⟨rest, all, rfl⟩ := mem_symbol.mp matched
  · exact List.forall_mem_cons.mpr ⟨isSubsequent_of_isInitial initial, all⟩
  · exact List.all_eq_true.mp rfl
  · exact List.all_eq_true.mp rfl
  · exact List.all_eq_true.mp rfl
  · exact List.forall_mem_cons.mpr ⟨rfl, List.forall_mem_cons.mpr ⟨rfl, all⟩⟩

/-- A plain lexeme has no break in it. -/
theorem unbroken (matched : text ∈ k.language) (plain : k.Plain) :
    ∀ c ∈ text, isBreak c = false := by
  cases k with
  | dot | quote =>
    rw [mem_char.mp matched]
    simp [isBreak, isLayout, isDelimiter]
  | boolean b =>
    cases b
    all_goals
      obtain same | same := matched
      all_goals
        rw [mem_literal.mp same]
        simp [isBreak, isLayout, isDelimiter]
  | number => exact fun c member => not_break_of_isSubsequent (number_subsequent matched c member)
  | symbol => exact fun c member => not_break_of_isSubsequent (symbol_subsequent matched c member)
  | _ => cases plain

/-- A newline is in layout and in strings, and in nothing else. -/
theorem newline_mem (matched : text ∈ k.language) (member : '\n' ∈ text) :
    k = .blank ∨ k = .string := by
  have broken : isBreak '\n' = true := by decide
  cases k with
  | blank => exact .inl rfl
  | string => exact .inr rfl
  | comment =>
    obtain ⟨rest, all, rfl⟩ := mem_char_seq.mp matched
    obtain same | later := List.mem_cons.mp member
    · cases same
    · exact absurd (mem_star_one.mp all _ later) (by decide)
  | opener b | closer b =>
    rw [mem_char.mp matched] at member
    cases b
    all_goals exact absurd member (by decide)
  | character =>
    obtain ⟨c, rest, first, names, rfl⟩ := mem_character.mp matched
    simp only [List.mem_cons, first.symm, false_or] at member
    obtain same | same | later := member
    · cases same
    · cases same
    · exact absurd (names _ later) (by decide)
  | dot | quote | boolean | number | symbol =>
    rw [unbroken matched trivial _ member] at broken
    cases broken
  | unknown => exact absurd matched mem_never.mp

/-- What begins with neither layout nor a semicolon is not skipped. -/
theorem visible_of_first (visible : isLayout c = false) (noComment : c ≠ ';') :
    ¬ (classify c cs).1.Skipped := by
  intro skipped
  have known : (classify c cs).1 ≠ .unknown := by
    intro unknown
    rw [unknown] at skipped
    obtain same | same := skipped
    all_goals cases same
  obtain ⟨matched, -⟩ := classify_longest known
  obtain blank | comment := skipped
  · rw [blank] at matched
    have layout := (mem_plus_one.mp matched).2 c List.mem_cons_self
    rw [visible] at layout
    cases layout
  · rw [comment] at matched
    obtain ⟨_, -, same⟩ := mem_char_seq.mp matched
    exact noComment (List.cons.inj same).1

/-- A start without a separator ends before the separator. -/
theorem prefix_of_notMem (starts : text <+: cs ++ c :: ds) (absent : c ∉ text) : text <+: cs := by
  by_cases shorter : text.length ≤ cs.length
  · exact List.prefix_of_prefix_length_le starts (List.prefix_append _ _) shorter
  · have front : cs ++ [c] <+: cs ++ c :: ds := ⟨ds, by simp⟩
    have beyond : cs ++ [c] <+: text :=
      List.prefix_of_prefix_length_le front starts (by simp; omega)
    exact absurd (beyond.subset (by simp)) absent

/-- What is classified depends only on which starts of the text are lexemes. -/
theorem classify_congr
    (same : ∀ k text, c :: text ∈ language k → (text <+: cs ↔ text <+: ds)) :
    classify c cs = classify c ds := by
  have fits := classify_fits c cs
  have fits' := classify_fits c ds
  generalize found : classify c cs = left at fits ⊢
  generalize found' : classify c ds = right at fits' ⊢
  cases fits with
  | lexeme matched starts length =>
    have reaches := classify_reaches matched ((same _ _ matched).mp starts)
    rw [found'] at reaches
    cases fits' with
    | lexeme matched' starts' length' =>
      have reaches' := classify_reaches matched' ((same _ _ matched').mpr starts')
      rw [found] at reaches'
      subst length length'
      -- each goes at least as far as the other, so they end together and are of one class
      exact Prod.ext (reaches.same reaches'.enough).symm
        (Nat.le_antisymm reaches.enough reaches'.enough)
    | nothing => exact absurd rfl reaches.known
  | nothing =>
    cases fits' with
    | lexeme matched' starts' length' =>
      have reaches' := classify_reaches matched' ((same _ _ matched').mpr starts')
      rw [found] at reaches'
      exact absurd rfl reaches'.known
    | nothing => rfl

theorem classify_newline (visible : isLayout c = false) (notString : c ≠ '"') :
    classify c (cs ++ '\n' :: ds) = classify c cs := by
  refine classify_congr fun k text matched => ⟨fun starts => ?_, fun starts => ?_⟩
  · refine prefix_of_notMem starts fun member => ?_
    obtain rfl | rfl := newline_mem matched (List.mem_cons_of_mem c member)
    · have layout := (mem_plus_one.mp matched).2 c List.mem_cons_self
      rw [visible] at layout
      cases layout
    · obtain ⟨_, -, same⟩ := mem_char_seq.mp matched
      cases same
      exact notString rfl
  · exact starts.trans (List.prefix_append _ _)

end Breaks

/-- What stands after the opening quote of a string that is closed, up to its closing quote. -/
inductive Closed : List Char → Prop where
  | quote : Closed ['"']
  | escape {c : Char} {cs : List Char} (visible : c ≠ '\n') (rest : Closed cs) :
      Closed ('\\' :: c :: cs)
  | plain {c : Char} {cs : List Char} (notQuote : c ≠ '"') (notBackslash : c ≠ '\\')
      (rest : Closed cs) : Closed (c :: cs)

theorem Closed.stringLength {text : List Char} (closed : Closed text) (rest : List Char) :
    stringLength (text ++ rest) = text.length := by
  induction closed with
  | quote => rfl
  | escape visible _ ih =>
    rw [List.cons_append, List.cons_append, Lexeme.stringLength, if_neg visible, ih,
      List.length_cons, List.length_cons]
    omega
  | plain notQuote notBackslash _ ih =>
    rw [List.cons_append, stringLength_plain _ ⟨notQuote, notBackslash⟩, ih, List.length_cons]
    omega

theorem exists_of_map_eq_ok {α β ε : Type} {f : α → β} {x : Except ε α} {b : β}
    (success : x.map f = .ok b) : ∃ a, x = .ok a := by
  cases x with
  | ok a => exact ⟨a, rfl⟩
  | error => cases success

/-- A string that is decoded is closed. -/
theorem closed_of_unescape {cs contents : List Char}
    (success : Literal.unescape (cs.take (stringLength cs)) = .ok contents) :
    Closed (cs.take (stringLength cs)) := by
  fun_induction stringLength cs generalizing contents with
  | case1 => cases success
  | case2 cs => exact .quote
  | case3 => cases success
  | case4 cs => cases success
  | case5 c cs visible ih =>
    rw [Nat.add_comm, List.take_succ_cons, List.take_succ_cons] at success ⊢
    rw [Literal.unescape] at success
    split at success
    · cases success
    · obtain ⟨rest, success'⟩ := exists_of_map_eq_ok success
      exact .escape visible (ih success')
  | case6 c cs notQuote last notEscape ih =>
    have notBackslash : c ≠ '\\' := by
      rintro rfl
      cases cs with
      | nil => exact last rfl rfl
      | cons d ds => exact notEscape d ds rfl rfl
    rw [Nat.add_comm, List.take_succ_cons] at success ⊢
    rw [Literal.unescape] at success
    · obtain ⟨rest, success'⟩ := exists_of_map_eq_ok success
      exact .plain notQuote notBackslash (ih success')
    · exact notQuote
    · exact fun same _ => notBackslash same
    · exact fun _ _ same _ => notBackslash same

theorem closed_of_stringTail {text contents : List Char} (matched : text ∈ stringTail.language)
    (success : Literal.unescape text = .ok contents) : Closed text := by
  obtain ⟨front, -, starts, length⟩ := exists_stringTail text
  have whole : stringLength text = text.length :=
    Nat.le_antisymm (length ▸ starts.length_le)
      ((longest_stringTail text).greatest text matched List.prefix_rfl)
  have all : text.take (stringLength text) = text := by rw [whole, List.take_length]
  have closed : Closed (text.take (stringLength text)) := closed_of_unescape (by rw [all, success])
  rwa [all] at closed

end MiniScheme.Lexeme

namespace MiniScheme.Scan

open Lexeme

/-- A string that is decoded ends where it does, whatever follows the text. -/
theorem stringLength_of_decoded {cs : List Char} {kind : Token.Kind}
    (decoded : Literal.decode .string ('"' :: cs.take (stringLength cs)) = .ok kind)
    (ds : List Char) : stringLength (cs ++ ds) = stringLength cs := by
  obtain ⟨contents, success⟩ := exists_of_map_eq_ok decoded
  have closed := closed_of_unescape success
  have joined := closed.stringLength (cs.drop (stringLength cs) ++ ds)
  have alone := closed.stringLength (cs.drop (stringLength cs))
  rw [← List.append_assoc, List.take_append_drop] at joined
  rw [List.take_append_drop] at alone
  rw [joined, ← alone]

/-- Layout can be skipped one character at a time. -/
theorem itemsOnto_layout {c : Char} (layout : isLayout c) (p : Position) (cs : List Char) :
    itemsOnto [] p (c :: cs) = itemsOnto [] (p.advance [c]) cs := by
  rw [itemsOnto_cons, classify_layout layout]
  change itemsOnto [] (p.advance (c :: cs.take (runLength isLayout cs)))
    (cs.drop (runLength isLayout cs)) = _
  cases cs with
  | nil => rfl
  | cons d ds =>
    by_cases more : isLayout d
    · have longer : runLength isLayout (d :: ds) = runLength isLayout ds + 1 := by
        rw [runLength, List.takeWhile_cons_of_pos more, List.length_cons]
        rfl
      rw [longer, itemsOnto_cons, classify_layout more, ← Position.advance_append]
      rfl
    · have none : runLength isLayout (d :: ds) = 0 := by
        rw [runLength, List.takeWhile_cons_of_neg more]
        rfl
      rw [none]
      rfl

theorem item?_of_skipped {k : Lexeme} {text : List Char} (p : Position) (skipped : k.Skipped) :
    item? p k text = none := by
  obtain rfl | rfl := skipped
  · rfl
  · rfl

theorem skipped_of_item? {p : Position} {k : Lexeme} {text : List Char}
    (none : item? p k text = none) :
    k.Skipped := by
  unfold item? at none
  split at none
  · exact .inl rfl
  · exact .inr rfl
  · dsimp only at none
    split at none <;> cases none

/-- A lexeme that is neither skipped nor an error is a token. -/
theorem decode_of_clean {p : Position} {k : Lexeme} {text : List Char} (visible : ¬ k.Skipped)
    (clean : ∀ e, item? p k text ≠ some (.error e)) : ∃ kind, Literal.decode k text = .ok kind := by
  unfold item? at clean
  split at clean
  · exact absurd (.inl rfl) visible
  · exact absurd (.inr rfl) visible
  · cases decoded : Literal.decode k text with
    | ok kind => exact ⟨kind, rfl⟩
    | error fault =>
      rw [decoded] at clean
      exact absurd rfl (clean _)

/-- A lexeme that is not layout and gives no error is the same lexeme when a newline follows the
text. -/
theorem classify_join {p : Position} {c : Char} {cs : List Char} (visible : isLayout c = false)
    (clean : ∀ e, item? p (classify c cs).1 (c :: cs.take (classify c cs).2) ≠ some (.error e))
    (ds : List Char) : classify c (cs ++ '\n' :: ds) = classify c cs := by
  by_cases quote : c = '"'
  · subst quote
    obtain ⟨kind, decoded⟩ := decode_of_clean (by simp [classify, Skipped]) clean
    exact congrArg (Lexeme.string, ·) (stringLength_of_decoded decoded ('\n' :: ds))
  · exact classify_newline visible quote

/-- Two texts with a newline between them give the items of the first and those of the second, if
the first has no lexical error. -/
theorem itemsOnto_join {p : Position} {cs : List Char}
    (clean : ∀ e, .error e ∉ itemsOnto [] p cs) (ds : List Char) :
    itemsOnto [] p (cs ++ '\n' :: ds) =
      itemsOnto [] p cs ++ itemsOnto [] (p.advance (cs ++ ['\n'])) ds := by
  have newline : isLayout '\n' := by decide
  induction length : cs.length using Nat.strongRecOn generalizing p cs with
  | _ n ih =>
    cases cs with
    | nil =>
      rw [List.nil_append, itemsOnto_layout newline, itemsOnto]
      rfl
    | cons c cs =>
      rw [List.length_cons] at length
      by_cases layout : isLayout c
      · -- the newline may make the layout before it longer, so only one character is taken off
        rw [itemsOnto_layout layout] at clean
        rw [List.cons_append, itemsOnto_layout layout, itemsOnto_layout layout,
          ih cs.length (by omega) clean rfl, ← Position.advance_append]
        rfl
      · rw [Bool.not_eq_true] at layout
        rw [itemsOnto_cons] at clean
        have here : ∀ e,
            item? p (classify c cs).1 (c :: cs.take (classify c cs).2) ≠ some (.error e) := by
          intro e failed
          exact clean e (List.mem_append_left _ (by simp [failed]))
        have later : ∀ e, .error e ∉ itemsOnto [] (p.advance (c :: cs.take (classify c cs).2))
            (cs.drop (classify c cs).2) :=
          fun e member => clean e (List.mem_append_right _ member)
        have inside := (classify_fits c cs).inside
        have shorter : (cs.drop (classify c cs).2).length < n := by
          rw [List.length_drop]
          omega
        rw [List.cons_append, itemsOnto_cons, itemsOnto_cons, classify_join layout here,
          List.take_append_of_le_length inside, List.drop_append_of_le_length inside,
          ih _ shorter later rfl, ← Position.advance_append, List.append_assoc]
        simp only [List.cons_append, ← List.append_assoc, List.take_append_drop]

end MiniScheme.Scan
