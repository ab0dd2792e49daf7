import MiniScheme.Proofs.Token.Boundary

/-!
# Blanks at the end of a text

White space is more than layout: what of it is not layout begins no lexeme. In a lexeme white space
stands only in layout, comments and strings, and right after the two marks of a character literal.
So blanks at the end of a text add no token to it, nor do they change one, unless a token goes on
into them (`sameTokens_blanks`).
-/
namespace MiniScheme

namespace Text.CodeRanges

/-- The numbers in the ranges, one by one. -/
def codes (ranges : CodeRanges) : List Nat :=
  ranges.flatMap fun range => List.range' range.1 (range.2 + 1 - range.1)

theorem mem_codes {ranges : CodeRanges} {n : Nat} (held : ranges.holds n) : n ∈ ranges.codes := by
  fun_induction holds ranges n with
  | case1 => cases held
  | case2 => cases held
  | case3 low high rest n above below =>
    refine List.mem_flatMap.mpr ⟨(low, high), List.mem_cons_self, ?_⟩
    rw [List.mem_range'_1]
    omega
  | case4 low high rest n above beyond ih =>
    rw [codes, List.flatMap_cons]
    exact List.mem_append_right _ (ih held)

end Text.CodeRanges

namespace Lexeme

open Pattern

variable {c : Char} {text cs ds : List Char} {k : Lexeme}

/-- No white space may follow in a symbol. -/
theorem not_blank_of_isSubsequent (subsequent : isSubsequent c) : Text.isBlank c = false := by
  have none : Text.blankRanges.codes.all fun n => !isSubsequent (Char.ofNat n) := by
    decide +kernel
  by_contra blank
  rw [Bool.not_eq_false] at blank
  have clash := List.all_eq_true.mp none _ (Text.CodeRanges.mem_codes blank)
  rw [Char.ofNat_toNat, subsequent] at clash
  cases clash

/-- White space that is not layout stands alone. -/
theorem classify_blank (blank : Text.isBlank c) (visible : isLayout c = false) (cs : List Char) :
    classify c cs = (.unknown, 0) := by
  have apart : ¬ isSubsequent c := by
    intro subsequent
    rw [not_blank_of_isSubsequent subsequent] at blank
    cases blank
  have noDigit : ¬ c.isDigit := fun digit => apart (isSubsequent_of_isDigit digit)
  have noInitial : ¬ isInitial c := fun initial => apart (isSubsequent_of_isInitial initial)
  unfold classify
  split
  case h_12 => simp [visible, noDigit, noInitial]
  all_goals exact absurd blank (by decide)

/-- A plain lexeme has no white space in it. -/
theorem unblank (matched : text ∈ k.language) (plain : k.Plain) :
    ∀ c ∈ text, Text.isBlank c = false := by
  cases k with
  | dot | quote =>
    rw [mem_char.mp matched]
    exact List.forall_mem_singleton.mpr (by decide)
  | boolean b =>
    cases b
    all_goals
      obtain same | same := matched
      all_goals
        rw [mem_literal.mp same]
        exact List.forall_mem_cons.mpr ⟨rfl, List.forall_mem_singleton.mpr rfl⟩
  | number => exact fun c member => not_blank_of_isSubsequent (number_subsequent matched c member)
  | symbol => exact fun c member => not_blank_of_isSubsequent (symbol_subsequent matched c member)
  | _ => cases plain

/-- A lexeme that ends in a text is the same if the text ends there. -/
theorem classify_of_inside (inside : (classify c (cs ++ ds)).2 ≤ cs.length) :
    classify c cs = classify c (cs ++ ds) := by
  refine classify_congr fun k text matched => ⟨fun starts => starts.trans (List.prefix_append _ _),
    fun starts => ?_⟩
  have short := (classify_reaches matched starts).enough
  exact List.prefix_of_prefix_length_le starts (List.prefix_append _ _) (short.trans inside)

end Lexeme

namespace Scan

open Lexeme Pattern

/-- No token comes first. -/
inductive Halted : List Item → Prop where
  | ended : Halted []
  | failed (e : LexicalError) (rest : List Item) : Halted (.error e :: rest)

/-- The same tokens, up to an error or the end of either. -/
inductive SameTokens : List Item → List Item → Prop where
  | halted {xs ys : List Item} (left : Halted xs) (right : Halted ys) : SameTokens xs ys
  | token {xs ys : List Item} (t : Token) (rest : SameTokens xs ys) :
      SameTokens (.ok t :: xs) (.ok t :: ys)

theorem SameTokens.item {xs ys : List Item} (item : Option Item) (rest : SameTokens xs ys) :
    SameTokens (item.toList ++ xs) (item.toList ++ ys) := by
  cases item with
  | none => exact rest
  | some item =>
    cases item with
    | ok t => exact .token t rest
    | error e => exact .halted (.failed e xs) (.failed e ys)

variable {p : Position} {c : Char} {cs ws : List Char} {k : Lexeme}

/-- Blanks alone give no token. -/
theorem halted_blanks (blank : ∀ c ∈ ws, Text.isBlank c) : Halted (itemsOnto [] p ws) := by
  induction ws generalizing p with
  | nil =>
    rw [itemsOnto]
    exact .ended
  | cons c ws ih =>
    rw [List.forall_mem_cons] at blank
    by_cases layout : isLayout c
    · rw [itemsOnto_layout layout]
      exact ih blank.2
    · rw [itemsOnto_cons, classify_blank blank.1 (by simpa using layout)]
      exact .failed _ _

theorem halted_item {text : List Char} (p : Position) (visible : ¬ k.Skipped)
    (noToken : ∀ t, item? p k text ≠ some (.ok t)) (rest : List Item) :
    Halted ((item? p k text).toList ++ rest) := by
  cases given : item? p k text with
  | some item =>
    cases item with
    | ok t => exact absurd given (noToken t)
    | error e => exact .failed e rest
  | none =>
    unfold item? at given
    split at given
    · exact absurd (.inl rfl) visible
    · exact absurd (.inr rfl) visible
    · dsimp only at given
      split at given
      · cases given
      · cases given

/-- The two marks of a character literal with nothing after them. -/
theorem halted_marks (p : Position) : Halted (itemsOnto [] p ['#', '\\']) := by
  rw [itemsOnto_cons]
  exact .failed _ _

/-- A string that goes on beyond a text is not closed in it. -/
theorem halted_string (p : Position) (beyond : cs.length < stringLength (cs ++ ws)) :
    Halted (itemsOnto [] p ('"' :: cs)) := by
  have string : classify '"' cs = (.string, stringLength cs) := rfl
  rw [itemsOnto_cons, string]
  refine halted_item p (by simp [Skipped]) ?_ _
  intro t given
  cases decoded : Literal.unescape (cs.take (stringLength cs)) with
  | error fault => simp [item?, Literal.decode, decoded, Except.map] at given
  | ok contents =>
    have longer := (closed_of_unescape decoded).stringLength (cs.drop (stringLength cs) ++ ws)
    rw [← List.append_assoc, List.take_append_drop] at longer
    have short := List.length_take_le' (stringLength cs) cs
    omega

/-- A comment on the last line goes up to the end of the text. -/
theorem itemsOnto_comment (p : Position) (oneLine : ∀ c ∈ cs, c ≠ '\n') :
    itemsOnto [] p (';' :: cs) = [] := by
  have all : runLength (· ≠ '\n') cs = cs.length := by
    rw [runLength, List.takeWhile_eq_self_iff.mpr (by simpa using oneLine)]
  have comment : classify ';' cs = (.comment, cs.length) := by rw [← all]; rfl
  rw [itemsOnto_cons, comment, List.drop_length, itemsOnto]
  rfl

theorem span_of_item? {text : List Char} {t : Token} (given : item? p k text = some (.ok t)) :
    t.span = ⟨p.offset, (p.advance text).offset⟩ := by
  unfold item? at given
  split at given
  · cases given
  · cases given
  · dsimp only at given
    split at given
    · cases given
      rfl
    · cases given

/-- A lexeme longer than the text `cs` is all of it and at least one of the blanks after it. -/
theorem exists_blank_of_beyond {n : Nat} (blank : ∀ c ∈ ws, Text.isBlank c)
    (beyond : cs.length < n) (inside : n ≤ (cs ++ ws).length) :
    ∃ d ds, (cs ++ ws).take n = cs ++ d :: ds ∧ Text.isBlank d := by
  rw [List.length_append] at inside
  obtain ⟨m, rfl⟩ := Nat.exists_eq_add_of_lt beyond
  cases ws with
  | nil =>
    rw [List.length_nil] at inside
    omega
  | cons d ws =>
    refine ⟨d, ws.take m, ?_, blank d List.mem_cons_self⟩
    rw [Nat.add_assoc, List.take_length_add_append, List.take_succ_cons]

/-- A lexeme that goes on into the blanks after a text and is no token. Without the blanks there is
no token in its place either. -/
theorem sameTokens_beyond (blank : ∀ c ∈ ws, Text.isBlank c) (visible : isLayout c = false)
    (beyond : cs.length < (classify c (cs ++ ws)).2)
    (noToken : ∀ t, item? p (classify c (cs ++ ws)).1
      (c :: (cs ++ ws).take (classify c (cs ++ ws)).2) ≠ some (.ok t)) :
    SameTokens (itemsOnto [] p (c :: (cs ++ ws))) (itemsOnto [] p (c :: cs)) := by
  have known : (classify c (cs ++ ws)).1 ≠ .unknown := by
    intro unknown
    have none := (classify_unknown unknown).1
    omega
  obtain ⟨matched, -⟩ := classify_longest known
  obtain ⟨d, ds, text, blankHere⟩ :=
    exists_blank_of_beyond blank beyond (classify_fits c (cs ++ ws)).inside
  rw [text] at matched noToken
  rw [itemsOnto_cons, text]
  have unplain (plain : (classify c (cs ++ ws)).1.Plain) : False := by
    have clash := unblank matched plain d (by simp)
    rw [blankHere] at clash
    cases clash
  cases kind : (classify c (cs ++ ws)).1 with
  | dot | quote | boolean | number | symbol => exact (unplain (by rw [kind]; trivial)).elim
  | unknown => exact absurd kind known
  | blank =>
    rw [kind] at matched
    have layout := (mem_plus_one.mp matched).2 c List.mem_cons_self
    rw [visible] at layout
    cases layout
  | opener b | closer b =>
    rw [kind] at matched
    have alone := congrArg List.length (mem_char.mp matched)
    simp at alone
  | comment =>
    rw [kind] at matched
    obtain ⟨body, all, same⟩ := mem_char_seq.mp matched
    cases same
    rw [mem_star_one] at all
    rw [itemsOnto_comment p fun c member => by simpa using all c (List.mem_append_left _ member)]
    refine .halted (halted_blanks fun c member => ?_) .ended
    rw [List.drop_append, List.drop_eq_nil_of_le beyond.le, List.nil_append] at member
    exact blank c (List.mem_of_mem_drop member)
  | character =>
    rw [kind] at matched noToken
    obtain ⟨x, names, -, all, same⟩ := mem_character.mp matched
    refine .halted (halted_item p (by simp [Skipped]) noToken _) ?_
    -- the blank can only be the character itself, right after the two marks
    cases cs with
    | nil =>
      cases same
      cases blankHere
    | cons y cs =>
      cases cs with
      | nil =>
        cases same
        exact halted_marks p
      | cons z cs =>
        cases same
        have named := all d (by simp)
        rw [isNameChar, blankHere] at named
        cases named
  | string =>
    rw [kind] at matched noToken
    obtain ⟨body, -, same⟩ := mem_char_seq.mp matched
    cases same
    exact .halted (halted_item p (by simp [Skipped]) noToken _) (halted_string p beyond)

/-- Blanks after a text add no token, and change none that does not go on into them. -/
theorem sameTokens_blanks {p : Position} {cs : List Char} (blank : ∀ c ∈ ws, Text.isBlank c)
    (kept : ∀ t, .ok t ∈ itemsOnto [] p (cs ++ ws) → t.span.stop ≤ p.offset + byteLength cs) :
    SameTokens (itemsOnto [] p (cs ++ ws)) (itemsOnto [] p cs) := by
  induction length : cs.length using Nat.strongRecOn generalizing p cs with
  | _ n ih =>
    cases cs with
    | nil =>
      refine .halted (halted_blanks blank) ?_
      rw [itemsOnto]
      exact .ended
    | cons c cs =>
      rw [List.length_cons] at length
      by_cases layout : isLayout c
      · rw [List.cons_append, itemsOnto_layout layout] at kept ⊢
        rw [itemsOnto_layout layout]
        refine ih cs.length (by omega) (fun t member => (kept t member).trans ?_) rfl
        simp [Position.advance, Nat.add_assoc]
      · rw [Bool.not_eq_true] at layout
        rw [List.cons_append, itemsOnto_cons] at kept
        by_cases inside : (classify c (cs ++ ws)).2 ≤ cs.length
        · rw [List.cons_append, itemsOnto_cons, itemsOnto_cons, classify_of_inside inside]
          rw [List.take_append_of_le_length inside, List.drop_append_of_le_length inside] at kept ⊢
          refine .item _ (ih _ ?_ ?_ rfl)
          · rw [List.length_drop]
            omega
          · intro t member
            have short := kept t (List.mem_append_right _ member)
            have split := byteLength_append (c :: cs.take (classify c (cs ++ ws)).2)
              (cs.drop (classify c (cs ++ ws)).2)
            rw [List.cons_append, List.take_append_drop] at split
            simp only [Position.advance]
            omega
        · refine sameTokens_beyond blank layout (by omega) ?_
          intro t given
          have short := kept t (List.mem_append_left _ (by simp [given]))
          obtain ⟨d, ds, text, -⟩ :=
            exists_blank_of_beyond blank (by omega) (classify_fits c (cs ++ ws)).inside
          have wide := d.utf8Size_pos
          rw [span_of_item? given, text] at short
          simp only [Position.advance, byteLength_cons, byteLength_append] at short
          omega

/-- Layout in front of a text moves it and does nothing else. -/
theorem itemsOnto_layouts {p : Position} (layout : ∀ c ∈ ws, isLayout c) (cs : List Char) :
    itemsOnto [] p (ws ++ cs) = itemsOnto [] (p.advance ws) cs := by
  induction ws generalizing p with
  | nil => rfl
  | cons c ws ih =>
    rw [List.forall_mem_cons] at layout
    rw [List.cons_append, itemsOnto_layout layout.1, ih layout.2, ← Position.advance_append]
    rfl

end Scan
end MiniScheme
