import MiniScheme.Proofs.Token.Coverage
import MiniScheme.Proofs.Token.Trim

/-!
# A stretch of the items alone

A text is cut right before one of its items and right behind the same or a later one. What stands
between the two cuts gives the items between them and no others, each as many bytes further down as
stand before the first cut: where a text ends right behind a lexeme the lexeme is the same, whatever
stood there (`Lexeme.classify_of_inside`). What is left out in front of an item is layout and
comments with their newlines.
-/
namespace MiniScheme

/-- The span as many bytes further down in the text. -/
def Span.down (n : Nat) (s : Span) : Span := ⟨s.start - n, s.stop - n⟩

/-- The span behind as many bytes more. -/
def Span.up (n : Nat) (s : Span) : Span := ⟨n + s.start, n + s.stop⟩

/-- The token without some bytes and lines in front of it. -/
def Token.down (n lines : Nat) (t : Token) : Token := ⟨t.kind, t.span.down n, t.line - lines⟩

/-- The token with some bytes and lines more in front of it. -/
def Token.up (n lines : Nat) (t : Token) : Token := ⟨t.kind, t.span.up n, lines + t.line⟩

namespace Item

def down (n lines : Nat) : Item → Item
  | .ok t => .ok (t.down n lines)
  | .error e => .error { e with span := e.span.down n, line := e.line - lines }

def up (n lines : Nat) : Item → Item
  | .ok t => .ok (t.up n lines)
  | .error e => .error { e with span := e.span.up n, line := lines + e.line }

theorem down_up (n lines : Nat) (item : Item) : (item.up n lines).down n lines = item := by
  cases item <;> simp [up, down, Token.up, Token.down, Span.up, Span.down]

theorem map_up_zero (items : List Item) : items.map (up 0 0) = items := by
  have same (item : Item) : item.up 0 0 = item := by
    cases item <;> simp [up, Token.up, Span.up]
  exact (List.map_congr_left fun item _ => same item).trans (List.map_id items)

end Item

/-- What may stand between tokens: layout, and comments each ended by a newline. -/
inductive Padding : List Char → Prop where
  | nil : Padding []
  | layout {c : Char} {cs : List Char} (layout : Lexeme.isLayout c) (rest : Padding cs) :
      Padding (c :: cs)
  | comment {body cs : List Char} (line : '\n' ∉ body) (rest : Padding cs) :
      Padding (';' :: (body ++ '\n' :: cs))

namespace Scan

open Lexeme

variable {p : Position} {k : Lexeme} {text cs : List Char} {item : Item} {xs ys : List Item}

theorem item?_up (p : Position) (n lines : Nat) (k : Lexeme) (text : List Char) :
    item? ⟨n + p.offset, lines + p.line⟩ k text = (item? p k text).map (Item.up n lines) := by
  unfold item?
  split
  · rfl
  · rfl
  · cases Literal.decode k text <;>
      simp [Item.up, Token.up, Span.up, Position.advance, Nat.add_assoc]

/-- A text that begins further up gives the same items, further up. -/
theorem itemsOnto_up (p : Position) (n lines : Nat) (cs : List Char) :
    itemsOnto [] ⟨n + p.offset, lines + p.line⟩ cs =
      (itemsOnto [] p cs).map (Item.up n lines) := by
  induction length : cs.length using Nat.strongRecOn generalizing p cs with
  | _ m ih =>
    cases cs with
    | nil =>
      rw [itemsOnto, itemsOnto]
      rfl
    | cons c cs =>
      have shorter : (cs.drop (Lexeme.classify c cs).2).length < m := by
        rw [← length, List.length_drop, List.length_cons]
        omega
      have later := ih _ shorter (p.advance (c :: cs.take (Lexeme.classify c cs).2)) _ rfl
      have moved : Position.advance ⟨n + p.offset, lines + p.line⟩
          (c :: cs.take (Lexeme.classify c cs).2) =
            ⟨n + (p.advance (c :: cs.take (Lexeme.classify c cs).2)).offset,
              lines + (p.advance (c :: cs.take (Lexeme.classify c cs).2)).line⟩ := by
        simp [Position.advance, Nat.add_assoc]
      rw [itemsOnto_cons, itemsOnto_cons, List.map_append, ← Option.toList_map, ← item?_up, moved,
        later]

theorem itemsOnto_down (p : Position) (n lines : Nat) (cs : List Char) :
    (itemsOnto [] ⟨n + p.offset, lines + p.line⟩ cs).map (Item.down n lines) =
      itemsOnto [] p cs := by
  rw [itemsOnto_up, List.map_map]
  exact (List.map_congr_left fun item _ => item.down_up n lines).trans (List.map_id _)

theorem itemsOnto_commentLine {body : List Char} (line : '\n' ∉ body) (p : Position)
    (cs : List Char) :
    itemsOnto [] p (';' :: (body ++ '\n' :: cs)) =
      itemsOnto [] (p.advance (';' :: (body ++ ['\n']))) cs := by
  have run : runLength (· ≠ '\n') (body ++ '\n' :: cs) = body.length := by
    refine runLength_append_cons (fun c member => ?_) (by decide)
    simp only [ne_eq, decide_not, Bool.not_eq_eq_eq_not, Bool.not_true, decide_eq_false_iff_not]
    rintro rfl
    exact line member
  have comment : classify ';' (body ++ '\n' :: cs) = (.comment, body.length) := by
    rw [← run]
    rfl
  rw [itemsOnto_cons, comment, List.take_left, List.drop_left, itemsOnto_layout (by decide),
    ← Position.advance_append]
  rfl

theorem itemSpan_of_item? (given : item? p k text = some item) :
    item.span = ⟨p.offset, (p.advance text).offset⟩ := by
  unfold item? at given
  split at given
  · cases given
  · cases given
  · dsimp only at given
    split at given <;> cases given <;> rfl

/-- One lexeme in front of a text that is cut there or further on. -/
theorem itemsOnto_front {c : Char} {cs front back : List Char}
    (split : cs.drop (Lexeme.classify c cs).2 = front ++ back) :
    itemsOnto [] p (c :: (cs.take (Lexeme.classify c cs).2 ++ front)) =
      (item? p (Lexeme.classify c cs).1 (c :: cs.take (Lexeme.classify c cs).2)).toList ++
        itemsOnto [] (p.advance (c :: cs.take (Lexeme.classify c cs).2)) front := by
  have inside := (Lexeme.classify_fits c cs).inside
  have long : (cs.take (Lexeme.classify c cs).2).length = (Lexeme.classify c cs).2 := by
    rw [List.length_take, Nat.min_eq_left inside]
  have whole : cs.take (Lexeme.classify c cs).2 ++ front ++ back = cs := by
    rw [List.append_assoc, ← split, List.take_append_drop]
  have same : Lexeme.classify c (cs.take (Lexeme.classify c cs).2 ++ front) =
      Lexeme.classify c cs := by
    have cut := @Lexeme.classify_of_inside c (cs.take (Lexeme.classify c cs).2 ++ front) back
    rw [whole] at cut
    refine cut ?_
    rw [List.length_append, long]
    exact Nat.le_add_right _ _
  rw [itemsOnto_cons, same, List.take_left' long, List.drop_left' long]

/-- A text can be cut right behind the last of its first items, or where it begins if there are
none of these. -/
theorem exists_cut_behind (found : itemsOnto [] p cs = xs ++ ys) :
    ∃ front back, cs = front ++ back ∧ itemsOnto [] p front = xs ∧
      itemsOnto [] (p.advance front) back = ys ∧
      xs.getLast?.elim p.offset (·.span.stop) = (p.advance front).offset := by
  induction length : cs.length using Nat.strongRecOn generalizing p cs xs with
  | _ n ih =>
    by_cases none : xs = []
    · subst none
      refine ⟨[], cs, rfl, by rw [itemsOnto]; rfl, found, rfl⟩
    cases cs with
    | nil =>
      rw [itemsOnto, List.reverse_nil] at found
      exact absurd (List.append_eq_nil_iff.mp found.symm).1 none
    | cons c cs =>
      have shorter : (cs.drop (Lexeme.classify c cs).2).length < n := by
        rw [← length, List.length_drop, List.length_cons]
        omega
      rw [itemsOnto_cons] at found
      cases given : item? p (Lexeme.classify c cs).1 (c :: cs.take (Lexeme.classify c cs).2) with
      | none =>
        -- layout goes in front of the cut
        rw [given] at found
        obtain ⟨front, back, split, inFront, behind, stop⟩ := ih _ shorter found rfl
        refine ⟨c :: (cs.take (Lexeme.classify c cs).2 ++ front), back, ?_, ?_, ?_, ?_⟩
        · rw [List.cons_append, List.append_assoc, ← split, List.take_append_drop]
        · rw [itemsOnto_front split, given, inFront]
          rfl
        · rw [← List.cons_append, Position.advance_append, behind]
        · rw [← List.cons_append, Position.advance_append, ← stop]
          obtain ⟨last, named⟩ := Option.isSome_iff_exists.mp (List.getLast?_isSome.mpr none)
          rw [named]
          rfl
      | some item =>
        rw [given] at found
        obtain ⟨first, xs, rfl⟩ := List.exists_cons_of_ne_nil none
        obtain ⟨rfl, later⟩ := List.cons.inj found
        obtain ⟨front, back, split, inFront, behind, stop⟩ := ih _ shorter later rfl
        refine ⟨c :: (cs.take (Lexeme.classify c cs).2 ++ front), back, ?_, ?_, ?_, ?_⟩
        · rw [List.cons_append, List.append_assoc, ← split, List.take_append_drop]
        · rw [itemsOnto_front split, given, inFront]
          rfl
        · rw [← List.cons_append, Position.advance_append, behind]
        · rw [← List.cons_append, Position.advance_append, ← stop, List.getLast?_cons]
          have span := itemSpan_of_item? given
          cases xs.getLast? with
          | none => exact congrArg Span.stop span
          | some last => rfl

/-- What stands before the first item of a text is padding. -/
theorem exists_padding_before (found : itemsOnto [] p cs = item :: xs) :
    ∃ gap rest, cs = gap ++ rest ∧ Padding gap ∧
      itemsOnto [] (p.advance gap) rest = item :: xs ∧
      item.span.start = (p.advance gap).offset := by
  induction length : cs.length using Nat.strongRecOn generalizing p cs with
  | _ n ih =>
    cases cs with
    | nil =>
      rw [itemsOnto] at found
      cases found
    | cons c cs =>
      by_cases layout : isLayout c
      · rw [itemsOnto_layout layout] at found
        obtain ⟨gap, rest, rfl, padding, behind, start⟩ := ih _ (by simp [← length]) found rfl
        rw [← Position.advance_append] at behind start
        exact ⟨c :: gap, rest, rfl, .layout layout padding, behind, start⟩
      rw [Bool.not_eq_true] at layout
      by_cases comment : c = ';'
      · subst comment
        by_cases ends : '\n' ∈ cs
        · obtain ⟨body, after, rfl, line⟩ := List.eq_append_cons_of_mem ends
          rw [itemsOnto_commentLine line] at found
          have shorter : after.length < n := by
            rw [← length, List.length_cons, List.length_append, List.length_cons]
            omega
          obtain ⟨gap, rest, rfl, padding, behind, start⟩ := ih _ shorter found rfl
          rw [← Position.advance_append] at behind start
          have split : ';' :: (body ++ ['\n']) ++ gap = ';' :: (body ++ '\n' :: gap) := by simp
          rw [split] at behind start
          exact ⟨_, rest, by simp, .comment line padding, behind, start⟩
        · rw [itemsOnto_comment p fun c member => by rintro rfl; exact ends member] at found
          cases found
      · refine ⟨[], c :: cs, rfl, .nil, found, ?_⟩
        rw [itemsOnto_cons] at found
        cases given : item? p (classify c cs).1 (c :: cs.take (classify c cs).2) with
        | none => exact absurd (skipped_of_item? given) (visible_of_first layout comment)
        | some first =>
          rw [given] at found
          obtain ⟨rfl, -⟩ := List.cons.inj found
          exact congrArg Span.start (itemSpan_of_item? given)

end Scan

/-- Some items one after another, none left out, are those of the text from where the first begins
to where the last ends. -/
theorem exists_slice {source : String} {before items after : List Item} {first last : Item}
    (scanned : scan source = before ++ (items ++ after)) (begins : items.head? = some first)
    (ends : items.getLast? = some last) :
    ∃ front text behind lines, source.toList = front ++ text ++ behind ∧
      first.span.start = byteLength front ∧ last.span.stop = byteLength (front ++ text) ∧
      scan (String.ofList text) = items.map (Item.down (byteLength front) lines) := by
  obtain ⟨skipped, rest, whole, -, here, -⟩ := Scan.exists_cut_behind scanned
  obtain ⟨more, rfl⟩ := List.head?_eq_some_iff.mp begins
  obtain ⟨layout, rest, rfl, -, here, start⟩ := Scan.exists_padding_before here
  rw [← Position.advance_append] at here start
  change _ = first :: more ++ after at here
  obtain ⟨text, behind, rfl, inside, -, stop⟩ := Scan.exists_cut_behind here
  have position : Position.first.advance (skipped ++ layout) =
      ⟨byteLength (skipped ++ layout) + Position.first.offset,
        (skipped ++ layout).count '\n' + Position.first.line⟩ := by
    simp [Position.advance, Position.first, Nat.add_comm]
  refine ⟨skipped ++ layout, text, behind, (skipped ++ layout).count '\n', ?_, ?_, ?_, ?_⟩
  · rw [whole]
    simp only [List.append_assoc]
  · rw [start, position]
    rfl
  · rw [ends] at stop
    rw [← Position.advance_append] at stop
    rw [show last.span.stop = _ from stop]
    simp [Position.advance, Position.first]
  · rw [← inside, position, Scan.itemsOnto_down, scan, Scan.items, String.toList_ofList]

end MiniScheme
