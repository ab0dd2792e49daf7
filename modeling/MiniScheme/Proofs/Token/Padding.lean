import MiniScheme.Proofs.Token.Slice

/-!
# Layout between tokens

Layout and comments with their newlines may stand before any token of a text. In front of a text
they are skipped. Behind a token they can only begin where its lexeme has ended: layout and the
semicolon are breaks (`MiniScheme.Proofs.Token.Boundary`), so the lexeme before is the same whether
they follow or something else does. What they change is where the tokens after them stand.
-/
namespace MiniScheme

theorem Padding.append {v w : List Char} (front : Padding v) (back : Padding w) :
    Padding (v ++ w) := by
  induction front with
  | nil => exact back
  | layout layout _ ih => exact .layout layout ih
  | comment line _ ih =>
    rw [List.cons_append, List.append_assoc, List.cons_append]
    exact .comment line ih

namespace Lexeme

open Pattern

variable {c d : Char} {cs ds text : List Char}

/-- No break may be in the name of a character. -/
theorem not_isNameChar_of_isBreak (broken : isBreak d) : isNameChar d = false := by
  have breaks : [' ', '\t', '\n', '\r', '\x0c', '(', ')', '[', ']', '"', ';'].all
      (!isNameChar ·) := rfl
  have member : d ∈ [' ', '\t', '\n', '\r', '\x0c', '(', ')', '[', ']', '"', ';'] := by
    simpa [isBreak, isLayout, isDelimiter, or_assoc] using broken
  simpa using List.all_eq_true.mp breaks d member

/-- A lexeme that may go on into a break behind the text does not: layout, comments and strings hold
breaks, and these are left out, and in a character literal a break can only be the character. -/
theorem prefix_before_break {k : Lexeme} (matched : c :: text ∈ k.language)
    (visible : isLayout c = false) (noComment : c ≠ ';') (noString : c ≠ '"')
    (named : ¬ (c = '#' ∧ cs = ['\\'])) (broken : isBreak d) (starts : text <+: cs ++ d :: ds) :
    text <+: cs := by
  have whole (plain : k.Plain) : text <+: cs := by
    refine prefix_of_notMem starts fun member => ?_
    have unbroken := unbroken matched plain d (List.mem_cons_of_mem c member)
    rw [broken] at unbroken
    cases unbroken
  cases k with
  | dot | quote | boolean | number | symbol => exact whole trivial
  | blank =>
    have layout := (mem_plus_one.mp matched).2 c List.mem_cons_self
    rw [visible] at layout
    cases layout
  | comment =>
    obtain ⟨_, -, same⟩ := mem_char_seq.mp matched
    exact absurd (List.cons.inj same).1 noComment
  | string =>
    obtain ⟨_, -, same⟩ := mem_char_seq.mp matched
    exact absurd (List.cons.inj same).1 noString
  | opener b | closer b =>
    obtain ⟨-, rfl⟩ := List.cons.inj (mem_char.mp matched)
    exact List.nil_prefix
  | unknown => exact absurd matched mem_never.mp
  | character =>
    obtain ⟨x, names, -, all, same⟩ := mem_character.mp matched
    cases same
    -- the break may be the character, but then the literal does not end before the break
    obtain _ | ⟨y, _ | ⟨z, cs⟩⟩ := cs
    · obtain ⟨rfl, -⟩ := List.cons_prefix_cons.mp starts
      cases broken
    · obtain ⟨rfl, -⟩ := List.cons_prefix_cons.mp starts
      exact absurd ⟨rfl, rfl⟩ named
    · rw [List.cons_append, List.cons_append, List.cons_prefix_cons,
        List.cons_prefix_cons] at starts
      obtain ⟨rfl, rfl, starts⟩ := starts
      have inside : names <+: cs := by
        refine prefix_of_notMem starts fun member => ?_
        have named := all d member
        rw [not_isNameChar_of_isBreak broken] at named
        cases named
      simpa using inside

/-- A lexeme that is neither layout nor a comment nor a string is the same whether the text ends or
a break follows, two marks with no character apart. -/
theorem classify_before_break (visible : isLayout c = false) (noComment : c ≠ ';')
    (noString : c ≠ '"') (named : ¬ (c = '#' ∧ cs = ['\\'])) (broken : isBreak d) :
    classify c (cs ++ d :: ds) = classify c cs := by
  refine classify_congr fun k text matched => ⟨fun starts => ?_, fun starts => ?_⟩
  · exact prefix_before_break matched visible noComment noString named broken starts
  · exact starts.trans (List.prefix_append _ _)

end Lexeme

namespace Scan

open Lexeme

variable {p : Position} {cs ds w : List Char} {item : Item} {xs ys : List Item}

/-- Padding in front of a text moves it and does nothing else. -/
theorem itemsOnto_padding (padding : Padding w) (p : Position) (cs : List Char) :
    itemsOnto [] p (w ++ cs) = itemsOnto [] (p.advance w) cs := by
  induction padding generalizing p with
  | nil => rfl
  | layout layout _ ih =>
    rw [List.cons_append, itemsOnto_layout layout, ih, ← Position.advance_append]
    rfl
  | @comment body ws line _ ih =>
    rw [List.cons_append, List.append_assoc, List.cons_append, itemsOnto_commentLine line, ih,
      ← Position.advance_append]
    simp

/-- A lexeme that gives a token is the same lexeme when a break follows the text. -/
theorem classify_before_padding {c d : Char} (visible : isLayout c = false) (noComment : c ≠ ';')
    (clean : ∀ e, item? p (classify c cs).1 (c :: cs.take (classify c cs).2) ≠ some (.error e))
    (broken : isBreak d) (ds : List Char) : classify c (cs ++ d :: ds) = classify c cs := by
  obtain ⟨kind, decoded⟩ := decode_of_clean (visible_of_first visible noComment) clean
  by_cases quote : c = '"'
  · subst quote
    exact congrArg (Lexeme.string, ·) (stringLength_of_decoded decoded (d :: ds))
  · refine classify_before_break visible noComment quote ?_ broken
    rintro ⟨rfl, rfl⟩
    cases decoded

/-- The text ends where its last item ends, or is empty. -/
def Ended (p : Position) (cs : List Char) : Prop :=
  (itemsOnto [] p cs).getLast?.elim p.offset (·.span.stop) = (p.advance cs).offset

theorem Ended.some_item {c : Char} (ended : Ended p (c :: cs)) : itemsOnto [] p (c :: cs) ≠ [] := by
  intro none
  have wide := c.utf8Size_pos
  rw [Ended, none] at ended
  simp only [List.getLast?_nil, Option.elim_none, Position.advance, byteLength_cons] at ended
  omega

/-- What is left of a text ends where its last item ends if the whole does. -/
theorem Ended.behind {text rest : List Char} {first : List Item} (ended : Ended p (text ++ rest))
    (found : itemsOnto [] p (text ++ rest) = first ++ itemsOnto [] (p.advance text) rest)
    (stops : ∀ item ∈ first, item.span.stop = (p.advance text).offset) :
    Ended (p.advance text) rest := by
  rw [Ended, found, List.getLast?_append] at ended
  rw [Ended]
  cases later : (itemsOnto [] (p.advance text) rest).getLast? with
  | some last =>
    rw [later] at ended
    rw [Position.advance_append] at ended
    exact ended
  | none =>
    rw [later, Option.none_or, Position.advance_append] at ended
    cases last : first.getLast? with
    | some item =>
      rw [last] at ended
      exact (stops item (List.mem_of_getLast? last)).symm.trans ended
    | none =>
      rw [last] at ended
      simp only [Option.elim_none, Position.advance] at ended ⊢
      omega

/-- What may follow a text without a change in its last lexeme: nothing, or a break. -/
inductive Apart : List Char → Prop where
  | nothing : Apart []
  | broken {d : Char} {ds : List Char} (broken : isBreak d) : Apart (d :: ds)

theorem Padding.apart (padding : Padding w) (some : w ≠ []) (ds : List Char) : Apart (w ++ ds) := by
  cases padding with
  | nil => exact absurd rfl some
  | layout layout => exact .broken (by simp [isBreak, layout])
  | comment => exact .broken (by decide)

/-- The first lexeme of a text that ends with an item, whatever follows the text apart from it. -/
theorem exists_front {c : Char} (clean : ∀ e, .error e ∉ itemsOnto [] p (c :: cs))
    (ended : Ended p (c :: cs)) :
    ∃ text rest first, c :: cs = text ++ rest ∧ rest.length ≤ cs.length ∧
      (∀ item ∈ first, item.span.stop = (p.advance text).offset) ∧
        ∀ behind, Apart behind → itemsOnto [] p (c :: (cs ++ behind)) =
          first ++ itemsOnto [] (p.advance text) (rest ++ behind) := by
  by_cases layout : isLayout c
  · refine ⟨[c], cs, [], rfl, Nat.le_refl _, by simp, fun behind _ => ?_⟩
    exact itemsOnto_layout layout p (cs ++ behind)
  rw [Bool.not_eq_true] at layout
  by_cases comment : c = ';'
  · subst comment
    by_cases ends : '\n' ∈ cs
    · obtain ⟨body, after, rfl, line⟩ := List.eq_append_cons_of_mem ends
      refine ⟨';' :: (body ++ ['\n']), after, [], by simp, by simp; omega, by simp, ?_⟩
      intro behind _
      rw [List.append_assoc, List.cons_append]
      exact itemsOnto_commentLine line p (after ++ behind)
    · refine absurd (itemsOnto_comment p fun c member => ?_) ended.some_item
      rintro rfl
      exact ends member
  · have here : ∀ e,
        item? p (classify c cs).1 (c :: cs.take (classify c cs).2) ≠ some (.error e) := by
      intro e failed
      refine clean e ?_
      rw [itemsOnto_cons]
      exact List.mem_append_left _ (by simp [failed])
    have inside := (classify_fits c cs).inside
    refine ⟨c :: cs.take (classify c cs).2, cs.drop (classify c cs).2,
      (item? p (classify c cs).1 (c :: cs.take (classify c cs).2)).toList, ?_, ?_, ?_, ?_⟩
    · rw [List.cons_append, List.take_append_drop]
    · rw [List.length_drop]
      exact Nat.sub_le _ _
    · intro item member
      rw [Option.mem_toList] at member
      exact congrArg Span.stop (itemSpan_of_item? member)
    · intro behind apart
      have same : classify c (cs ++ behind) = classify c cs := by
        cases apart with
        | nothing => rw [List.append_nil]
        | broken broken => exact classify_before_padding layout comment here broken _
      rw [itemsOnto_cons, same, List.take_append_of_le_length inside,
        List.drop_append_of_le_length inside]

/-- Padding behind the last item of a text, and what follows the padding. -/
theorem itemsOnto_padded (clean : ∀ e, .error e ∉ itemsOnto [] p cs) (ended : Ended p cs)
    (padding : Padding w) (some : w ≠ []) (ds : List Char) :
    itemsOnto [] p (cs ++ (w ++ ds)) =
      itemsOnto [] p cs ++ itemsOnto [] (p.advance (cs ++ w)) ds := by
  induction length : cs.length using Nat.strongRecOn generalizing p cs with
  | _ n ih =>
    cases cs with
    | nil =>
      rw [List.nil_append, itemsOnto_padding padding, itemsOnto]
      rfl
    | cons c cs =>
      obtain ⟨text, rest, first, split, shorter, stops, follows⟩ := exists_front clean ended
      have alone := follows [] .nothing
      rw [List.append_nil, List.append_nil] at alone
      have later : ∀ e, .error e ∉ itemsOnto [] (p.advance text) rest := by
        intro e member
        rw [alone] at clean
        exact clean e (List.mem_append_right _ member)
      rw [split] at ended
      have ended' := ended.behind (split ▸ alone) stops
      rw [List.length_cons] at length
      rw [List.cons_append, follows _ (Padding.apart padding some ds),
        ih rest.length (by omega) later ended' rfl, alone, split, ← Position.advance_append,
        List.append_assoc, List.append_assoc]

/-- Before each item behind tokens the text can be cut. Padding put in there leaves the items before
and moves those after. -/
theorem exists_gap (found : itemsOnto [] p cs = xs ++ item :: ys) (clean : ∀ e, .error e ∉ xs) :
    ∃ before after, cs = before ++ after ∧ item.span.start = (p.advance before).offset ∧
      ∀ w, Padding w → itemsOnto [] p (before ++ (w ++ after)) =
        xs ++ (item :: ys).map (Item.up (byteLength w) (w.count '\n')) := by
  obtain ⟨front, back, rfl, inFront, behind, stop⟩ := exists_cut_behind found
  obtain ⟨gap, rest, rfl, gapPadding, here, start⟩ := exists_padding_before behind
  rw [← Position.advance_append] at start
  refine ⟨front ++ gap, rest, (List.append_assoc _ _ _).symm, start, fun w padding => ?_⟩
  by_cases none : gap ++ w = []
  · obtain ⟨rfl, rfl⟩ := List.append_eq_nil_iff.mp none
    rw [byteLength_nil, List.count_nil, Item.map_up_zero, ← found]
    simp
  · have ended : Ended p front := by
      rw [Ended, inFront]
      exact stop
    have put := itemsOnto_padded (inFront ▸ clean) ended (gapPadding.append padding) none rest
    have moved : p.advance (front ++ (gap ++ w)) =
        ⟨byteLength w + (p.advance (front ++ gap)).offset,
          w.count '\n' + (p.advance (front ++ gap)).line⟩ := by
      rw [← List.append_assoc, Position.advance_append]
      simp [Position.advance, Nat.add_comm]
    rw [moved, itemsOnto_up, Position.advance_append, here, inFront] at put
    rw [← put]
    simp only [List.append_assoc]

end Scan
end MiniScheme
