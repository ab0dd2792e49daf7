import MiniScheme.Proofs.Token.Longest

/-!
# Scanning takes the longest match

A run over a text, said with the declared patterns alone: at each place the longest start that some
pattern matches is skipped or gives one item of its class, and where no pattern matches anything one
character is an invalid token. The scanner makes such a run over every text. Since no text has two
classes, a run has no choice of class.
-/
namespace MiniScheme

open Lexeme (Longest declared)

/-- The class of lexemes that a token comes from. -/
def Token.Kind.lexeme : Token.Kind → Lexeme
  | .opener b => .opener b
  | .closer b => .closer b
  | .dot => .dot
  | .quote => .quote
  | .atom (.boolean b) => .boolean b
  | .atom (.number _) => .number
  | .atom (.character _) => .character
  | .atom (.string _) => .string
  | .atom (.symbol _) => .symbol

/-- The class of lexemes in which a fault is found. -/
def LexicalFault.lexeme : LexicalFault → Lexeme
  | .unterminatedString => .string
  | .invalidNumber _ => .number
  | .invalidCharacter _ => .character
  | .unknownEscape _ => .string
  | .invalidToken => .unknown

namespace Item

def lexeme : Item → Lexeme
  | .ok t => t.kind.lexeme
  | .error e => e.fault.lexeme

/-- Where an item stands. -/
def span : Item → Span
  | .ok t => t.span
  | .error e => e.span

/-- The line on which an item begins. -/
def line : Item → Nat
  | .ok t => t.line
  | .error e => e.line

end Item

namespace Scan

/-- The item covers `text`, which stands after `before`, and quotes it if it is an error. -/
structure Stands (before text : List Char) (item : Item) : Prop where
  span : item.span = ⟨byteLength before, byteLength (before ++ text)⟩
  line : item.line = 1 + before.count '\n'
  quoted : ∀ e, item = .error e → e.text = String.ofList text

/-- A run over a text that stands after `before`, with the items it gives. -/
inductive Munched : List Char → List Char → List Item → Prop where
  | finish {before : List Char} : Munched before [] []
  | skipped {before text rest : List Char} {k : Lexeme} {items : List Item}
      (matched : text ∈ k.language) (longest : Longest declared (text ++ rest) text.length)
      (layout : k.Skipped) (later : Munched (before ++ text) rest items) :
      Munched before (text ++ rest) items
  | taken {before text rest : List Char} {k : Lexeme} {item : Item} {items : List Item}
      (matched : text ∈ k.language) (longest : Longest declared (text ++ rest) text.length)
      (visible : ¬ k.Skipped) (sameClass : item.lexeme = k)
      (stands : Stands before text item) (later : Munched (before ++ text) rest items) :
      Munched before (text ++ rest) (item :: items)
  | invalid {before rest : List Char} {c : Char} {e : LexicalError} {items : List Item}
      (none : Longest declared (c :: rest) 0) (fault : e.fault = .invalidToken)
      (stands : Stands before [c] (.error e)) (later : Munched (before ++ [c]) rest items) :
      Munched before (c :: rest) (.error e :: items)

theorem of_map_eq_error {α β ε : Type} {f : α → β} {x : Except ε α} {e : ε}
    (failed : x.map f = .error e) : x = .error e := by
  cases x with
  | ok => cases failed
  | error => exact congrArg Except.error (Except.error.inj failed)

theorem unescape_fault {cs : List Char} {fault : LexicalFault}
    (failed : Literal.unescape cs = .error fault) : fault.lexeme = .string := by
  fun_induction Literal.unescape cs with
  | case1 | case3 | case4 =>
    cases failed
    rfl
  | case2 => cases failed
  | case5 _ _ _ _ ih => exact ih (of_map_eq_error failed)
  | case6 _ _ _ _ _ ih => exact ih (of_map_eq_error failed)

theorem character_fault {text : List Char} {fault : LexicalFault}
    (failed : Literal.character text = .error fault) : fault.lexeme = .character := by
  unfold Literal.character at failed
  dsimp only at failed
  split at failed
  · cases failed
  · split at failed
    · cases failed
    · cases failed
      rfl

/-- A lexeme that is not skipped is decoded to a token of its class or to a fault of its class. -/
theorem decode_lexeme {k : Lexeme} (text : List Char) (visible : ¬ k.Skipped) :
    match Literal.decode k text with
    | .ok kind => kind.lexeme = k
    | .error fault => fault.lexeme = k := by
  cases k with
  | blank => exact absurd (.inl rfl) visible
  | comment => exact absurd (.inr rfl) visible
  | opener | closer | dot | quote | boolean | symbol | unknown => rfl
  | number =>
    unfold Literal.decode Literal.number
    cases Number.Decimal.ofLiteral? text <;> rfl
  | character =>
    unfold Literal.decode
    cases value : Literal.character text with
    | ok c => rfl
    | error fault => exact character_fault value
  | string =>
    unfold Literal.decode
    cases value : Literal.unescape (text.drop 1) with
    | ok c => rfl
    | error fault => exact unescape_fault value

theorem stands_advance {item : Item} (before text : List Char)
    (span : item.span = ⟨(Position.first.advance before).offset,
      ((Position.first.advance before).advance text).offset⟩)
    (line : item.line = (Position.first.advance before).line)
    (quoted : ∀ e, item = .error e → e.text = String.ofList text) : Stands before text item := by
  refine ⟨?_, line, quoted⟩
  rw [span, byteLength_append]
  simp [Position.advance, Position.first]

/-- A lexeme after `before` is skipped, or gives one item of its class in its place. -/
theorem item?_advance (before text : List Char) (k : Lexeme) :
    (k.Skipped ∧ item? (Position.first.advance before) k text = none) ∨
      (¬ k.Skipped ∧ ∃ item, item? (Position.first.advance before) k text = some item ∧
        item.lexeme = k ∧ Stands before text item) := by
  by_cases layout : k.Skipped
  · refine .inl ⟨layout, ?_⟩
    obtain rfl | rfl := layout
    · rfl
    · rfl
  · refine .inr ⟨layout, ?_⟩
    have decoded := decode_lexeme text layout
    unfold item?
    split
    · exact absurd (.inl rfl) layout
    · exact absurd (.inr rfl) layout
    · dsimp only
      split
      · next kind value =>
        rw [value] at decoded
        exact ⟨_, rfl, decoded, stands_advance before text rfl rfl nofun⟩
      · next fault value =>
        rw [value] at decoded
        refine ⟨_, rfl, decoded, stands_advance before text rfl rfl ?_⟩
        rintro e ⟨⟩
        rfl

/-- One lexeme of a run. -/
theorem munched_step {before cs : List Char} {c : Char} {items : List Item}
    (later : Munched (before ++ c :: cs.take (Lexeme.classify c cs).2)
      (cs.drop (Lexeme.classify c cs).2) items) :
    Munched before (c :: cs)
      ((item? (Position.first.advance before) (Lexeme.classify c cs).1
        (c :: cs.take (Lexeme.classify c cs).2)).toList ++ items) := by
  have whole : c :: cs =
      (c :: cs.take (Lexeme.classify c cs).2) ++ cs.drop (Lexeme.classify c cs).2 := by
    rw [List.cons_append, List.take_append_drop]
  by_cases known : (Lexeme.classify c cs).1 = .unknown
  · -- nothing matches, so the character stands alone
    obtain ⟨alone, none⟩ := Lexeme.classify_unknown known
    rw [alone] at later
    rw [known, alone]
    refine .invalid none rfl (stands_advance before [c] rfl rfl ?_) later
    rintro e ⟨⟩
    rfl
  · obtain ⟨matched, longest⟩ := Lexeme.classify_longest known
    rw [whole] at longest
    obtain ⟨layout, item⟩ | ⟨visible, item, given, lexeme, stands⟩ :=
      item?_advance before (c :: cs.take (Lexeme.classify c cs).2) (Lexeme.classify c cs).1
    · rw [item]
      nth_rewrite 1 [whole]
      exact .skipped matched longest layout later
    · rw [given]
      nth_rewrite 1 [whole]
      exact .taken matched longest visible lexeme stands later

/-- The scanner runs to the end of every text. -/
theorem munched_itemsOnto (before cs : List Char) :
    Munched before cs (itemsOnto [] (Position.first.advance before) cs) := by
  induction length : cs.length using Nat.strongRecOn generalizing before cs with
  | _ n ih =>
    cases cs with
    | nil =>
      rw [itemsOnto]
      exact .finish
    | cons c cs =>
      have shorter : (cs.drop (Lexeme.classify c cs).2).length < n := by
        rw [← length, List.length_drop, List.length_cons]
        omega
      have later := ih _ shorter (before ++ c :: cs.take (Lexeme.classify c cs).2) _ rfl
      rw [Position.advance_append] at later
      rw [itemsOnto_cons]
      exact munched_step later

end Scan

/-- Scanning is longest match over the declared patterns, and these tell the classes apart. -/
theorem scan_munched (source : String) :
    Scan.Munched [] source.toList (scan source) ∧
      Pairwise (Function.onFun Disjoint Lexeme.language) := by
  refine ⟨Scan.munched_itemsOnto [] source.toList, ?_⟩
  intro k k' different
  refine Set.disjoint_left.mpr ?_
  intro text matched matched'
  exact different (Lexeme.eq_of_mem_language matched matched')

end MiniScheme
