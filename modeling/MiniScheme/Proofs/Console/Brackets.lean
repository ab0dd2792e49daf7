import MiniScheme.Proofs.Console.Readable
import MiniScheme.Proofs.Token.Munch

/-!
# The check sees the brackets that the scanner sees

The check goes over characters with four modes, the scanner over lexemes by longest match, and the
scanner goes on after errors. On a text in which no character literal begins and no backslash stands
right before a newline, both see the same brackets: the verdict is the one on the bracket tokens
that the scanner yields, whatever else it yields (`check_iff_brackets`).

Where the scanner is at the start of a lexeme the check is in the code, and it is in the code again
after it. A string literal without its closing quote is the exception. It is the last thing in the
text, but for a backslash, so there the check stays in the string to the end.
-/
namespace MiniScheme

/-- The error is about a string literal that has no closing quote. -/
def LexicalError.Unclosed (e : LexicalError) : Prop :=
  ∃ tail, e.text.toList = '"' :: tail ∧ ¬ Lexeme.Closed tail

namespace Balance

open Lexeme Pattern

def isBracket (t : Token) : Bool :=
  match t.kind with
  | .opener _ => true
  | .closer _ => true
  | _ => false

/-- The bracket tokens among some items, in order. -/
def brackets (items : List Item) : List Token :=
  items.filterMap fun
    | .ok t => if isBracket t then some t else none
    | .error _ => none

/-- Bracket tokens of which every closing one matches the innermost bracket open before it, and the
brackets that they leave open, innermost first. -/
inductive Nested : List Token → List Bracket → Prop where
  | none : Nested [] []
  | opener {tokens : List Token} {stack : List Bracket} {t : Token} {b : Bracket}
      (before : Nested tokens stack) (opens : t.kind = .opener b) :
      Nested (tokens ++ [t]) (b :: stack)
  | closer {tokens : List Token} {stack : List Bracket} {t : Token} {b : Bracket}
      (before : Nested tokens (b :: stack)) (closes : t.kind = .closer b) :
      Nested (tokens ++ [t]) stack

/-- The token is the first closing bracket that does not match the innermost bracket open before
it. -/
def FirstUnmatched (tokens : List Token) (t : Token) (b : Bracket) : Prop :=
  ∃ before after stack, tokens = before ++ t :: after ∧ Nested before stack ∧
    t.kind = .closer b ∧ stack.head? ≠ some b

/-- The items leave something open: a bracket, or a string. -/
def LeaveOpen (items : List Item) : Prop :=
  (∃ b stack, Nested (brackets items) (b :: stack)) ∨ ∃ e, .error e ∈ items ∧ e.Unclosed

/-! ## Matching by a stack -/

section Matching

variable {stack stack' : List Bracket} {t : Token} {tokens : List Token} {b : Bracket} {i : Nat}

theorem matchTokens_snoc (front : List Token) :
    matchTokens stack (front ++ [t]) =
      match matchTokens stack front with
      | .ok stack' => matchToken stack' t
      | .error unmatched => .error unmatched := by
  induction front generalizing stack with
  | nil =>
    change matchTokens stack [t] = matchToken stack t
    simp only [matchTokens]
    cases matchToken stack t <;> rfl
  | cons first front ih =>
    rw [List.cons_append, matchTokens, matchTokens]
    cases matchToken stack first with
    | ok stack' => exact ih
    | error unmatched => rfl

theorem matchTokens_append_error {unmatched : Bracket × Nat} {front : List Token}
    (failed : matchTokens stack front = .error unmatched) (back : List Token) :
    matchTokens stack (front ++ back) = .error unmatched := by
  induction back using List.reverseRecOn with
  | nil => rwa [List.append_nil]
  | append_singleton back t ih => rw [← List.append_assoc, matchTokens_snoc, ih]

theorem matchToken_eq_error_iff :
    matchToken stack t = .error (b, i) ↔
      t.kind = .closer b ∧ stack.head? ≠ some b ∧ t.span.start = i := by
  unfold matchToken
  cases t.kind with
  | closer b' =>
    cases stack with
    | nil => simp
    | cons top below =>
      by_cases same : top = b'
      · subst same
        simp only [if_true, reduceCtorEq, Token.Kind.closer.injEq, List.head?_cons,
          Option.some.injEq, ne_eq, false_iff, not_and]
        exact fun equal apart => absurd equal apart
      · simp only [same, if_false, Except.error.injEq, Prod.mk.injEq, Token.Kind.closer.injEq,
          List.head?_cons, Option.some.injEq, ne_eq]
        constructor
        · rintro ⟨rfl, rfl⟩
          exact ⟨rfl, same, rfl⟩
        · rintro ⟨rfl, -, rfl⟩
          exact ⟨rfl, rfl⟩
  | _ => simp

/-- A bracket that the stack matches keeps what came before it nested. -/
theorem Nested.snoc (nested : Nested tokens stack) (bracket : isBracket t)
    (matched : matchToken stack t = .ok stack') : Nested (tokens ++ [t]) stack' := by
  unfold isBracket at bracket
  unfold matchToken at matched
  cases kind : t.kind with
  | opener b =>
    simp only [kind, Except.ok.injEq] at matched
    subst matched
    exact .opener nested kind
  | closer b =>
    simp only [kind] at matched
    split at matched
    · split at matched
      · next same =>
        cases matched
        subst same
        exact .closer nested kind
      · cases matched
    · cases matched
  | dot | quote | atom =>
    rw [kind] at bracket
    cases bracket

theorem Nested.matchTokens (nested : Nested tokens stack) :
    Balance.matchTokens [] tokens = .ok stack := by
  induction nested with
  | none => rfl
  | opener before opens ih =>
    rw [matchTokens_snoc, ih]
    exact matchToken_opener opens
  | closer before closes ih =>
    rw [matchTokens_snoc, ih]
    exact matchToken_closer closes

/-- The stack tells whether brackets are nested, and finds the first that is not matched. -/
theorem matchTokens_tells (all : ∀ t ∈ tokens, isBracket t) :
    match matchTokens [] tokens with
    | .ok stack => Nested tokens stack
    | .error (b, i) => ∃ t, FirstUnmatched tokens t b ∧ t.span.start = i := by
  induction tokens using List.reverseRecOn with
  | nil => exact .none
  | append_singleton front t ih =>
    rw [List.forall_mem_append, List.forall_mem_singleton] at all
    have before := ih all.1
    rw [matchTokens_snoc]
    cases result : matchTokens [] front with
    | error unmatched =>
      rw [result] at before
      obtain ⟨t', ⟨front', after, stack, rfl, nested, closes, apart⟩, start⟩ := before
      exact ⟨t', ⟨front', after ++ [t], stack, by simp, nested, closes, apart⟩, start⟩
    | ok middle =>
      rw [result] at before
      dsimp only
      cases last : matchToken middle t with
      | ok after => exact before.snoc all.2 last
      | error unmatched =>
        obtain ⟨closes, apart, start⟩ := matchToken_eq_error_iff.mp last
        exact ⟨t, ⟨front, [], middle, rfl, before, closes, apart⟩, start⟩

theorem nested_iff (all : ∀ t ∈ tokens, isBracket t) :
    Nested tokens stack ↔ matchTokens [] tokens = .ok stack := by
  refine ⟨Nested.matchTokens, fun matched => ?_⟩
  have tells := matchTokens_tells all
  rwa [matched] at tells

theorem firstUnmatched_iff (all : ∀ t ∈ tokens, isBracket t) :
    (∃ t, FirstUnmatched tokens t b ∧ t.span.start = i) ↔
      matchTokens [] tokens = .error (b, i) := by
  constructor
  · rintro ⟨t, ⟨front, after, stack, rfl, nested, closes, apart⟩, start⟩
    have failed : matchTokens [] (front ++ [t]) = .error (b, i) := by
      rw [matchTokens_snoc, nested.matchTokens]
      exact matchToken_eq_error_iff.mpr ⟨closes, apart, start⟩
    rw [← List.singleton_append, ← List.append_assoc]
    exact matchTokens_append_error failed after
  · intro failed
    have tells := matchTokens_tells all
    rwa [failed] at tells

end Matching

/-! ## The verdict on items -/

/-- What the items of a text make of it, with some brackets open before it. -/
inductive Judged (stack : List Bracket) (items : List Item) : Verdict → Prop where
  | unmatched {b : Bracket} {i : Nat} (found : matchTokens stack (brackets items) = .error (b, i)) :
      Judged stack items (.invalid b i)
  | lacking {stack' : List Bracket} (matched : matchTokens stack (brackets items) = .ok stack')
      (lacks : stack' ≠ [] ∨ ∃ e, .error e ∈ items ∧ e.Unclosed) : Judged stack items .incomplete
  | complete (matched : matchTokens stack (brackets items) = .ok [])
      (closed : ∀ e, .error e ∈ items → ¬ e.Unclosed) : Judged stack items .valid

section Judged

variable {stack : List Bracket} {items : List Item} {v : Verdict} {t : Token}

theorem brackets_cons_error (e : LexicalError) (items : List Item) :
    brackets (.error e :: items) = brackets items := rfl

theorem brackets_cons_ok (t : Token) (items : List Item) :
    brackets (.ok t :: items) = if isBracket t then t :: brackets items else brackets items := by
  by_cases bracket : isBracket t
  · simp [brackets, bracket]
  · simp [brackets, bracket]

theorem isBracket_of_mem_brackets (member : t ∈ brackets items) : isBracket t := by
  obtain ⟨item, -, given⟩ := List.mem_filterMap.mp member
  cases item with
  | error e => cases given
  | ok t' =>
    obtain ⟨bracket, same⟩ := Option.ite_none_right_eq_some.mp given
    cases same
    exact bracket

/-- An item that is neither a bracket nor a string left open makes no difference. -/
theorem Judged.cons {item : Item} (judged : Judged stack items v)
    (noBracket : ∀ t, item = .ok t → isBracket t = false)
    (noString : ∀ e, item = .error e → ¬ e.Unclosed) : Judged stack (item :: items) v := by
  have same : brackets (item :: items) = brackets items := by
    cases item with
    | ok t => rw [brackets_cons_ok, noBracket t rfl, if_neg Bool.false_ne_true]
    | error e => rfl
  cases judged with
  | unmatched found => exact .unmatched (same ▸ found)
  | lacking matched lacks =>
    refine .lacking (same ▸ matched) (lacks.imp_right ?_)
    rintro ⟨e, member, unclosed⟩
    exact ⟨e, List.mem_cons_of_mem _ member, unclosed⟩
  | complete matched closed =>
    refine .complete (same ▸ matched) fun e member => ?_
    obtain here | later := List.mem_cons.mp member
    · exact noString e here.symm
    · exact closed e later

/-- A bracket that is matched goes to the stack or comes from it. -/
theorem Judged.bracket {stack' : List Bracket} (judged : Judged stack' items v)
    (bracket : isBracket t) (matched : matchToken stack t = .ok stack') :
    Judged stack (.ok t :: items) v := by
  have same : matchTokens stack (brackets (.ok t :: items)) =
      matchTokens stack' (brackets items) := by
    rw [brackets_cons_ok, if_pos bracket, matchTokens_step _ matched]
  cases judged with
  | unmatched found => exact .unmatched (same.trans found)
  | lacking after lacks =>
    refine .lacking (same.trans after) (lacks.imp_right ?_)
    rintro ⟨e, member, unclosed⟩
    exact ⟨e, List.mem_cons_of_mem _ member, unclosed⟩
  | complete after closed =>
    refine .complete (same.trans after) fun e member => ?_
    obtain here | later := List.mem_cons.mp member
    · cases here
    · exact closed e later

theorem judged_of_unmatched {b : Bracket} {i : Nat} (bracket : isBracket t)
    (failed : matchToken stack t = .error (b, i)) :
    Judged stack (.ok t :: items) (.invalid b i) := by
  refine .unmatched ?_
  rw [brackets_cons_ok, if_pos bracket, matchTokens, failed]

end Judged

/-! ## The check over the lexemes of a text -/

section Lexemes

variable {c : Char} {cs text rest : List Char} {k : Lexeme} (stack : List Bracket) (p : Position)

theorem closed_escape_iff {d : Char} : Closed ('\\' :: d :: cs) ↔ d ≠ '\n' ∧ Closed cs := by
  constructor
  · intro closed
    cases closed with
    | escape visible rest => exact ⟨visible, rest⟩
    | plain _ notBackslash _ => exact absurd rfl notBackslash
  · rintro ⟨visible, rest⟩
    exact .escape visible rest

theorem closed_plain_iff (plain : c ≠ '"' ∧ c ≠ '\\') : Closed (c :: cs) ↔ Closed cs := by
  constructor
  · intro closed
    cases closed with
    | quote => exact absurd rfl plain.1
    | escape => exact absurd rfl plain.2
    | plain _ _ rest => exact rest
  · exact .plain plain.1 plain.2

/-- A string literal that is not closed leaves nothing after it but a backslash, and the check ends
in it. -/
theorem checkFrom_unclosed (noContinuation : ¬ ['\\', '\n'] <:+: cs)
    (unclosed : ¬ Closed (cs.take (stringLength cs))) :
    (cs.drop (stringLength cs) = [] ∨ cs.drop (stringLength cs) = ['\\']) ∧
      ∀ offset, checkFrom .string stack offset cs = .incomplete := by
  fun_induction stringLength cs with
  | case1 => exact ⟨.inl rfl, fun _ => rfl⟩
  | case2 => exact absurd .quote unclosed
  | case3 => exact ⟨.inr rfl, fun _ => rfl⟩
  | case4 cs => exact absurd ⟨[], cs, rfl⟩ noContinuation
  | case5 d cs visible ih =>
    rw [Nat.add_comm, List.take_succ_cons, List.take_succ_cons, closed_escape_iff] at unclosed
    obtain ⟨ends, verdict⟩ := ih
      (fun inside => noContinuation (List.infix_cons (List.infix_cons inside)))
      fun closed => unclosed ⟨visible, closed⟩
    rw [Nat.add_comm, List.drop_succ_cons, List.drop_succ_cons]
    exact ⟨ends, fun offset => verdict (offset + '\\'.utf8Size + d.utf8Size)⟩
  | case6 c cs notQuote last notEscape ih =>
    have notBackslash : c ≠ '\\' := by
      rintro rfl
      cases cs with
      | nil => exact last rfl rfl
      | cons d ds => exact notEscape d ds rfl rfl
    rw [Nat.add_comm, List.take_succ_cons, closed_plain_iff ⟨notQuote, notBackslash⟩] at unclosed
    obtain ⟨ends, verdict⟩ := ih (fun inside => noContinuation (List.infix_cons inside)) unclosed
    rw [Nat.add_comm, List.drop_succ_cons]
    refine ⟨ends, fun offset => ?_⟩
    rw [← verdict (offset + c.utf8Size)]
    have inside : Mode.string.after c = .string := by
      rw [Mode.after, if_neg notBackslash, if_neg notQuote]
    simp [checkFrom, inside]

theorem silent_of_unknown (unknown : (classify c cs).1 = .unknown) : isDelimiter c = false := by
  by_contra delimiter
  rw [Bool.not_eq_false, isDelimiter, decide_eq_true_eq] at delimiter
  simp only [List.mem_cons, List.not_mem_nil, or_false] at delimiter
  obtain rfl | rfl | rfl | rfl | rfl | rfl := delimiter
  all_goals cases unknown

/-- A lexeme that is neither skipped nor a bracket gives an item that is no bracket, and that quotes
the lexeme if it is an error. -/
theorem item?_of_visible (visible : ¬ k.Skipped) (noBracket : ∀ b, k ≠ .opener b ∧ k ≠ .closer b)
    (text : List Char) :
    ∃ item, Scan.item? p k text = some item ∧ (∀ t, item = .ok t → isBracket t = false) ∧
      ∀ e, item = .error e → e.text = String.ofList text := by
  have decoded := Scan.decode_lexeme text visible
  unfold Scan.item?
  split
  · exact absurd (.inl rfl) visible
  · exact absurd (.inr rfl) visible
  · dsimp only
    split
    · next kind value =>
      rw [value] at decoded
      refine ⟨_, rfl, ?_, nofun⟩
      rintro t ⟨⟩
      cases kind with
      | opener b => exact absurd decoded.symm (noBracket b).1
      | closer b => exact absurd decoded.symm (noBracket b).2
      | dot | quote | atom => rfl
    · refine ⟨_, rfl, nofun, ?_⟩
      rintro e ⟨⟩
      rfl

/-- A lexeme that the check passes over in the code makes no difference to what the items tell. -/
theorem judged_of_silent {items : List Item} {v : Verdict} (visible : ¬ k.Skipped)
    (noBracket : ∀ b, k ≠ .opener b ∧ k ≠ .closer b)
    (noString : ∀ tail, text = '"' :: tail → Closed tail) (judged : Judged stack items v) :
    Judged stack ((Scan.item? p k text).toList ++ items) v := by
  obtain ⟨item, given, noBracket, quotes⟩ := item?_of_visible p visible noBracket text
  rw [given]
  refine judged.cons noBracket ?_
  rintro e same ⟨tail, starts, unclosed⟩
  rw [quotes e same, String.toList_ofList] at starts
  exact unclosed (noString tail starts)

/-- One lexeme, of any class but a string. -/
theorem judged_lexeme {items : List Item} (matched : text ∈ k.language)
    (noCharacter : ¬ ['#', '\\'] <:+: text) (noString : k ≠ .string)
    (ends : k = .comment → rest = [] ∨ ∃ ds, rest = '\n' :: ds)
    (later : ∀ stack, Judged stack items (checkFrom .code stack (p.advance text).offset rest)) :
    Judged stack ((Scan.item? p k text).toList ++ items)
      (checkFrom .code stack p.offset (text ++ rest)) := by
  cases k with
  | blank | comment =>
    rw [checkFrom_skipped stack p matched (by simp [Skipped]) ends]
    exact later stack
  | opener b | closer b =>
    rw [checkFrom_token stack p matched rfl (by simp), Scan.item?_of_decode p rfl]
    cases result : matchToken stack ⟨_, ⟨p.offset, (p.advance text).offset⟩, p.line⟩ with
    | ok stack' => exact (later stack').bracket rfl result
    | error unmatched => exact judged_of_unmatched rfl result
  | dot | quote | boolean | number | symbol =>
    have silent := silent_of_plain matched trivial
    have noQuote (tail : List Char) (starts : text = '"' :: tail) : Closed tail := by
      rw [starts] at silent
      cases silent '"' List.mem_cons_self
    rw [checkFrom_silent stack p.offset silent]
    exact judged_of_silent stack p (by simp [Skipped]) (by simp) noQuote (later stack)
  | character =>
    obtain ⟨c, name, -, -, rfl⟩ := mem_character.mp matched
    exact absurd ⟨[], c :: name, rfl⟩ noCharacter
  | string => exact absurd rfl noString
  | unknown => exact absurd matched mem_never.mp

theorem item?_of_unclosed (unclosed : ¬ Closed (cs.take (stringLength cs))) :
    ∃ e, Scan.item? p .string ('"' :: cs.take (stringLength cs)) = some (.error e) ∧
      e.Unclosed := by
  cases decoded : Literal.unescape (cs.take (stringLength cs)) with
  | ok contents => exact absurd (closed_of_unescape decoded) unclosed
  | error fault =>
    refine ⟨⟨fault, ⟨p.offset, (p.advance ('"' :: cs.take (stringLength cs))).offset⟩, p.line,
      String.ofList ('"' :: cs.take (stringLength cs))⟩, ?_, _, String.toList_ofList, unclosed⟩
    simp only [Scan.item?, Literal.decode, List.drop_succ_cons, List.drop_zero, decoded]
    rfl

/-- A string literal. One that is not closed has no bracket after it. -/
theorem judged_string (noContinuation : ¬ ['\\', '\n'] <:+: cs)
    (later : ∀ stack, Judged stack
      (Scan.itemsOnto [] (p.advance ('"' :: cs.take (stringLength cs))) (cs.drop (stringLength cs)))
      (checkFrom .code stack (p.advance ('"' :: cs.take (stringLength cs))).offset
        (cs.drop (stringLength cs)))) :
    Judged stack (Scan.itemsOnto [] p ('"' :: cs))
      (checkFrom .code stack p.offset ('"' :: cs)) := by
  have enters : checkFrom .code stack p.offset ('"' :: cs) =
      checkFrom .string stack (p.offset + '"'.utf8Size) cs := rfl
  have string : classify '"' cs = (.string, stringLength cs) := rfl
  rw [enters, Scan.itemsOnto_cons, string]
  by_cases closed : Closed (cs.take (stringLength cs))
  · have passed :=
      checkFrom_closed stack (p.offset + '"'.utf8Size) closed (cs.drop (stringLength cs))
    rw [List.take_append_drop, Nat.add_assoc] at passed
    rw [passed]
    refine judged_of_silent stack p (by simp [Skipped]) (by simp) ?_ (later stack)
    rintro tail ⟨⟩
    exact closed
  · obtain ⟨ends, verdict⟩ := checkFrom_unclosed stack noContinuation closed
    obtain ⟨e, given, unclosed⟩ := item?_of_unclosed p closed
    have none (q : Position) : brackets (Scan.itemsOnto [] q (cs.drop (stringLength cs))) = [] := by
      obtain nothing | backslash := ends
      · rw [nothing, Scan.itemsOnto]
        rfl
      · rw [backslash, Scan.itemsOnto_cons, List.drop_nil, Scan.itemsOnto]
        rfl
    rw [verdict, given]
    refine .lacking (?_ : _ = Except.ok stack) (.inr ⟨e, List.mem_cons_self, unclosed⟩)
    rw [Option.toList_some, List.singleton_append, brackets_cons_error, none]
    rfl

end Lexemes

/-- The check from the start of a lexeme gives the verdict of the items from there on. -/
theorem judged_checkFrom {p : Position} {cs : List Char} (noCharacter : ¬ ['#', '\\'] <:+: cs)
    (noContinuation : ¬ ['\\', '\n'] <:+: cs) (stack : List Bracket) :
    Judged stack (Scan.itemsOnto [] p cs) (checkFrom .code stack p.offset cs) := by
  induction length : cs.length using Nat.strongRecOn generalizing p cs stack with
  | _ n ih =>
    cases cs with
    | nil =>
      rw [Scan.itemsOnto]
      cases stack with
      | nil => exact .complete rfl (by simp)
      | cons b stack => exact .lacking rfl (.inl (List.cons_ne_nil b stack))
    | cons c cs =>
      let text := c :: cs.take (classify c cs).2
      let rest := cs.drop (classify c cs).2
      have whole : c :: cs = text ++ rest := by
        rw [List.cons_append, List.take_append_drop]
      have shorter : rest.length < n := by
        rw [← length, List.length_drop, List.length_cons]
        omega
      have behind : rest <:+: c :: cs := ⟨text, [], by rw [List.append_nil, ← whole]⟩
      have front : text <:+: c :: cs := ⟨[], rest, by rw [List.nil_append, ← whole]⟩
      have later (stack : List Bracket) :
          Judged stack (Scan.itemsOnto [] (p.advance text) rest)
            (checkFrom .code stack (p.advance text).offset rest) :=
        ih _ shorter (fun inside => noCharacter (inside.trans behind))
          (fun inside => noContinuation (inside.trans behind)) stack rfl
      by_cases unknown : (classify c cs).1 = .unknown
      · -- one character that no pattern matches, and that is no delimiter
        have silent := silent_of_unknown unknown
        have alone : text = [c] ∧ rest = cs := by
          simp only [text, rest, (classify_unknown unknown).1, List.take_zero, List.drop_zero,
            and_self]
        have passed := later stack
        rw [alone.1, alone.2] at passed
        rw [Scan.itemsOnto_cons, unknown, checkFrom_silent_cons stack p.offset silent]
        change Judged stack ((Scan.item? p .unknown text).toList ++
          Scan.itemsOnto [] (p.advance text) rest) _
        rw [alone.1, alone.2]
        refine judged_of_silent stack p (by simp [Skipped]) (by simp) ?_ passed
        rintro tail ⟨⟩
        cases silent
      · obtain ⟨matched, -⟩ := classify_longest unknown
        by_cases string : (classify c cs).1 = .string
        · rw [string] at matched
          obtain ⟨_, -, same⟩ := mem_char_seq.mp matched
          cases same
          exact judged_string stack p (fun inside => noContinuation (List.infix_cons inside)) later
        · rw [Scan.itemsOnto_cons, whole]
          exact judged_lexeme stack p matched (fun inside => noCharacter (inside.trans front))
            string comment_ends later

/-- On a text without the two marks of a character literal, and without a backslash right before a
newline, the verdict is that on the brackets that the scanner yields: invalid at the first closing
bracket that matches none, else incomplete if a bracket or a string is left open, else valid. -/
theorem check_iff_brackets (source : String) (noCharacter : ¬ ['#', '\\'] <:+: source.toList)
    (noContinuation : ¬ ['\\', '\n'] <:+: source.toList) :
    (∀ b i, check source.toList = .invalid b i ↔
      ∃ t, FirstUnmatched (brackets (scan source)) t b ∧ t.span.start = i) ∧
    ((∀ t b, ¬ FirstUnmatched (brackets (scan source)) t b) →
      (check source.toList = .incomplete ↔ LeaveOpen (scan source)) ∧
      (check source.toList = .valid ↔ ¬ LeaveOpen (scan source))) := by
  have judged : Judged [] (scan source) (check source.toList) :=
    judged_checkFrom (p := .first) noCharacter noContinuation []
  have all : ∀ t ∈ brackets (scan source), isBracket t := fun t => isBracket_of_mem_brackets
  simp only [firstUnmatched_iff all]
  generalize check source.toList = verdict at judged ⊢
  cases judged with
  | unmatched found =>
    refine ⟨fun b i => by simp [found], fun absent => ?_⟩
    obtain ⟨t, first, -⟩ := (firstUnmatched_iff all).mpr found
    exact absurd first (absent t _)
  | lacking matched lacks =>
    have left : LeaveOpen (scan source) := by
      refine lacks.imp_left fun nonempty => ?_
      obtain ⟨b, stack, rfl⟩ := List.exists_cons_of_ne_nil nonempty
      exact ⟨b, stack, (nested_iff all).mpr matched⟩
    exact ⟨fun b i => by simp [matched], fun _ => ⟨by simp [left], by simp [left]⟩⟩
  | complete matched closed =>
    have nothing : ¬ LeaveOpen (scan source) := by
      rintro (⟨b, stack, nested⟩ | ⟨e, member, unclosed⟩)
      · cases matched.symm.trans nested.matchTokens
      · exact closed e member unclosed
    exact ⟨fun b i => by simp [matched], fun _ => ⟨by simp [nothing], by simp [nothing]⟩⟩

/-- Brackets in a comment and in a string do not count, a backslash in the code hides none, and the
offset counts bytes. -/
theorem check_iff_brackets_mixed :
    let source := "[;)\n\"é\\\"(\" \\)"
    ¬ ['#', '\\'] <:+: source.toList ∧ ¬ ['\\', '\n'] <:+: source.toList ∧
      ∃ t, FirstUnmatched (brackets (scan source)) t .round ∧ t.span.start = 13 := by
  intro source
  have noCharacter : ¬ ['#', '\\'] <:+: source.toList := by decide
  have noContinuation : ¬ ['\\', '\n'] <:+: source.toList := by decide
  have verdict : check source.toList = .invalid .round 13 := by cbv
  exact ⟨noCharacter, noContinuation,
    ((check_iff_brackets source noCharacter noContinuation).1 .round 13).mp verdict⟩

end Balance
end MiniScheme
