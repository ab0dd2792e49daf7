import MiniScheme.Proofs.Datum.Acceptance
import MiniScheme.Proofs.Token.Boundary

/-!
# Reading without places

Tokens, data and reading errors know where they stand, but reading goes by the kinds of the tokens
alone: to forget the places of all items and read is to read and forget the places of what was read
(`readAll_erase`). A text gives the same items wherever it begins, places aside, and two texts with
a newline between them are read as the first and then the second, if the first has no error
(`readAll_join`).
-/
namespace MiniScheme

/-- The same token, standing nowhere. -/
def Token.erase (t : Token) : Token := ⟨t.kind, default, 0⟩

def LexicalError.erase (e : LexicalError) : LexicalError := { e with span := default, line := 0 }

def Item.erase : Item → Item
  | .ok t => .ok t.erase
  | .error e => .error e.erase

/-- The same expectation, without the line of the bracket to be closed. -/
def Expectation.erase : Expectation → Expectation
  | .closerOf b _ => .closerOf b 0
  | e => e

/-- The same error, about items that stand nowhere. -/
def ReadError.erase : ReadError → ReadError
  | .unexpected found expected => .unexpected found.erase expected.erase
  | .unclosed opener b => .unclosed opener.erase b
  | .nothingBeforeDot dot => .nothingBeforeDot dot.erase
  | .nothingAfterQuote mark => .nothingAfterQuote mark.erase
  | .emptyInput => .emptyInput
  | .tooDeep token limit => .tooDeep token.erase limit
  | .lexical e => .lexical e.erase

/-- The same result of a step of reading, with the places forgotten by `er` in what it gives. -/
def ReadError.eraseIn {α : Type} (er : α → α) : Except ReadError α → Except ReadError α
  | .ok a => .ok (er a)
  | .error e => .error e.erase

namespace Scan

theorem item?_erase (p q : Position) (k : Lexeme) (text : List Char) :
    (item? p k text).map Item.erase = (item? q k text).map Item.erase := by
  unfold item?
  split
  · rfl
  · rfl
  · cases Literal.decode k text <;> rfl

/-- A text gives the same items wherever it begins. -/
theorem itemsOnto_erase (p q : Position) (cs : List Char) :
    (itemsOnto [] p cs).map Item.erase = (itemsOnto [] q cs).map Item.erase := by
  induction length : cs.length using Nat.strongRecOn generalizing p q cs with
  | _ n ih =>
    cases cs with
    | nil => rw [itemsOnto, itemsOnto]
    | cons c cs =>
      have shorter : (cs.drop (Lexeme.classify c cs).2).length < n := by
        rw [← length, List.length_drop, List.length_cons]
        omega
      rw [itemsOnto_cons, itemsOnto_cons, List.map_append, List.map_append, ← Option.toList_map,
        ← Option.toList_map, item?_erase p q, ih _ shorter _ _ _ rfl]

end Scan

/-- Two texts with a newline between them give the items of both, places aside. -/
theorem scan_join {first : String} (clean : ∀ e, .error e ∉ scan first) (second : String) :
    (scan (first ++ "\n" ++ second)).map Item.erase =
      (scan first).map Item.erase ++ (scan second).map Item.erase := by
  have text : (first ++ "\n" ++ second).toList = first.toList ++ '\n' :: second.toList := by
    simp
  unfold scan Scan.items
  rw [text, Scan.itemsOnto_join clean, List.map_append,
    Scan.itemsOnto_erase (Position.first.advance _) .first]

namespace Reader

def Pending.erase : Pending → Pending
  | .list opener b elements => .list opener.erase b (elements.map Sexpr.erase)
  | .dotted opener b elements => .dotted opener.erase b (elements.map Sexpr.erase)
  | .quote mark => .quote mark.erase

def State.erase : State → State
  | .expecting stack => .expecting (stack.map Pending.erase)
  | .closing opener b elements tail stack =>
    .closing opener.erase b (elements.map Sexpr.erase) tail.erase (stack.map Pending.erase)

def Progress.erase : Progress → Progress
  | .more s => .more s.erase
  | .done d => .done d.erase

section Steps

variable (limit : Nat) (token : Token) (stack : List Pending)

theorem ofList_erase (elements : List Datum) (tail : Datum) :
    Datum.ofList (elements.map Sexpr.erase) tail.erase = (Datum.ofList elements tail).erase := by
  induction elements with
  | nil => rfl
  | cons d ds ih =>
    have rest : (ds.map Sexpr.erase).foldr
        (fun car cdr => Datum.cons (car.span.merge cdr.span) car cdr) tail.erase =
          (Datum.ofList ds tail).erase := ih
    simp only [Datum.ofList, List.map_cons, List.foldr_cons, rest, Sexpr.span_erase]
    rfl

theorem finish_erase (opener : Token) (elements : List Datum) (tail : Datum) (stop : Nat) :
    finish opener.erase (elements.map Sexpr.erase) tail.erase 0 =
      (finish opener elements tail stop).erase := by
  rw [finish, ← List.map_reverse, ofList_erase, finish, erase_withSpan]
  exact Sexpr.withSpan_erase _

theorem quoted_erase (mark : Token) (d : Datum) :
    Datum.quoted mark.erase.span d.erase = (Datum.quoted mark.span d).erase := by
  simp only [Datum.quoted, Sexpr.span_erase]
  rfl

theorem feed_erase (d : Datum) :
    feed d.erase (stack.map Pending.erase) = (feed d stack).erase := by
  induction stack generalizing d with
  | nil => rfl
  | cons waiting stack ih =>
    cases waiting with
    | list => rfl
    | dotted => rfl
    | quote mark =>
      have next := ih (Datum.quoted mark.span d)
      rw [← quoted_erase] at next
      exact next

theorem enter_erase (p : Pending) :
    enter limit token.erase p.erase (stack.map Pending.erase) =
      ReadError.eraseIn Progress.erase (enter limit token p stack) := by
  unfold enter
  rw [List.length_map]
  split <;> rfl

theorem close_erase (b : Bracket) :
    close token.erase b (stack.map Pending.erase) =
      ReadError.eraseIn Progress.erase (close token b stack) := by
  cases stack with
  | nil => rfl
  | cons waiting stack =>
    cases waiting with
    | dotted => rfl
    | quote => rfl
    | list opener b' elements =>
      simp only [List.map_cons, Pending.erase, close]
      split
      · have closed := finish_erase opener elements
          (.nil ⟨token.span.stop - 1, token.span.stop⟩) token.span.stop
        have fed := feed_erase stack (finish opener elements
          (.nil ⟨token.span.stop - 1, token.span.stop⟩) token.span.stop)
        rw [← closed] at fed
        exact congrArg Except.ok fed
      · rfl

theorem dot_erase :
    dot token.erase (stack.map Pending.erase) =
      ReadError.eraseIn Progress.erase (dot token stack) := by
  cases stack with
  | nil => rfl
  | cons waiting stack =>
    cases waiting with
    | dotted => rfl
    | quote => rfl
    | list opener b elements => cases elements <;> rfl

/-- One token does the same without the places. -/
theorem step_erase (s : State) :
    step limit s.erase token.erase = ReadError.eraseIn Progress.erase (step limit s token) := by
  obtain ⟨kind, span, line⟩ := token
  cases s with
  | expecting stack =>
    cases kind with
    | atom a => exact congrArg Except.ok (feed_erase stack (.atom span a))
    | opener b => exact enter_erase limit ⟨.opener b, span, line⟩ stack (.list _ b [])
    | quote => exact enter_erase limit ⟨.quote, span, line⟩ stack (.quote _)
    | closer b => exact close_erase ⟨.closer b, span, line⟩ stack b
    | dot => exact dot_erase ⟨.dot, span, line⟩ stack
  | closing opener b elements tail stack =>
    have fed := feed_erase stack (finish opener elements tail span.stop)
    rw [← finish_erase] at fed
    by_cases closes : kind = .closer b
    · have right : step limit (.closing opener b elements tail stack) ⟨kind, span, line⟩ =
          .ok (feed (finish opener elements tail span.stop) stack) := if_pos closes
      rw [right]
      exact (if_pos closes).trans (congrArg Except.ok fed)
    · have right : step limit (.closing opener b elements tail stack) ⟨kind, span, line⟩ =
          .error (.unexpected ⟨kind, span, line⟩ (.closerAfterTail b)) := if_neg closes
      rw [right]
      exact if_neg closes

end Steps

theorem unfinished_erase (s : State) : s.erase.unfinished = s.unfinished.erase := by
  cases s with
  | closing => rfl
  | expecting stack =>
    cases stack with
    | nil => rfl
    | cons waiting => cases waiting <;> rfl

/-- Reading on does the same without the places, and leaves the same items. -/
theorem readFrom_erase (limit : Nat) (s : State) (items : List Item) :
    readFrom limit s.erase (items.map Item.erase) =
      (ReadError.eraseIn Sexpr.erase (readFrom limit s items).1,
        (readFrom limit s items).2.map Item.erase) := by
  induction items generalizing s with
  | nil => exact congrArg (Except.error ·, []) (unfinished_erase s)
  | cons item rest ih =>
    cases item with
    | error e => rfl
    | ok token =>
      simp only [List.map_cons, Item.erase, readFrom, step_erase]
      cases step limit s token with
      | error e => rfl
      | ok next =>
        cases next with
        | done d => rfl
        | more s' => exact ih s'

/-- Forgetting the places of all items commutes with reading them. -/
theorem readAll_erase (limit : Nat) (items : List Item) :
    readAll limit (items.map Item.erase) =
      (readAll limit items).map (ReadError.eraseIn Sexpr.erase) := by
  fun_induction readAll limit items with
  | case1 => rw [List.map_nil, readAll, List.map_nil]
  | case2 item rest result e failed =>
    have erased := readFrom_erase limit (.expecting []) (item :: rest)
    rw [List.map_cons, readAll]
    simp only [read, result, State.erase, List.map_nil, List.map_cons] at erased failed ⊢
    rw [erased, failed]
    rfl
  | case3 item rest result d success ih =>
    have erased := readFrom_erase limit (.expecting []) (item :: rest)
    rw [List.map_cons, readAll]
    simp only [read, result, State.erase, List.map_nil, List.map_cons] at erased success ih ⊢
    rw [erased, success, ih]
    rfl

/-- More items after a datum stay unread. -/
theorem readFrom_append {limit : Nat} {s : State} {items rest : List Item} {d : Datum}
    (success : readFrom limit s items = (.ok d, rest)) (more : List Item) :
    readFrom limit s (items ++ more) = (.ok d, rest ++ more) := by
  induction items generalizing s with
  | nil => cases success
  | cons item items ih =>
    cases item with
    | error e => cases success
    | ok token =>
      rw [List.cons_append]
      unfold readFrom at success ⊢
      cases stepped : step limit s token with
      | error e =>
        rw [stepped] at success
        cases success
      | ok next =>
        rw [stepped] at success
        cases next with
        | done d' =>
          cases success
          rfl
        | more s' => exact ih success

/-- Items that are read without error are read first, whatever follows. -/
theorem readAll_append {limit : Nat} {items : List Item}
    (clean : ∀ e, .error e ∉ readAll limit items) (more : List Item) :
    readAll limit (items ++ more) = readAll limit items ++ readAll limit more := by
  fun_induction readAll limit items with
  | case1 => rfl
  | case2 item rest result e failed => exact absurd List.mem_cons_self (clean e)
  | case3 item rest result d success ih =>
    have longer := readFrom_append (Prod.ext success rfl) more
    have later := ih fun e member => clean e (List.mem_cons_of_mem _ member)
    rw [List.cons_append, readAll, ← List.cons_append, read, longer]
    exact congrArg (_ :: ·) later

/-- Two texts with a newline between them are read as the first and then the second, places aside,
if the first is read without error. -/
theorem readAll_join {limit : Nat} {first : String}
    (clean : ∀ e, .error e ∉ readAll limit (scan first)) (second : String) :
    (readAll limit (scan (first ++ "\n" ++ second))).map (ReadError.eraseIn Sexpr.erase) =
      (readAll limit (scan first) ++ readAll limit (scan second)).map
        (ReadError.eraseIn Sexpr.erase) := by
  have tokens : ∀ e, .error e ∉ scan first := by
    obtain ⟨p, -, -, items, -⟩ := derivesAll_of_readAll clean
    rw [items]
    simp [asItems]
  have apart : readAll limit ((scan first).map Item.erase ++ (scan second).map Item.erase) = _ :=
    readAll_append ?_ ((scan second).map Item.erase)
  · rw [← readAll_erase, scan_join tokens, apart, readAll_erase, readAll_erase, List.map_append]
  · intro e member
    rw [readAll_erase] at member
    obtain ⟨result, member', erased⟩ := List.mem_map.mp member
    cases result with
    | ok d => cases erased
    | error e' => exact clean e' member'

end Reader
end MiniScheme
