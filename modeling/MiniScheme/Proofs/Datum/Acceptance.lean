import MiniScheme.Proofs.Datum.Written

/-!
# The reader accepts exactly the grammar

Two directions over one reader. Completeness goes by induction over derivations with their spans
(`Writes`): from any stack with room for it, a datum that is written is read to its last token and
handed to the stack. Soundness goes by induction over the items: the stack spells the tokens
consumed (`Spells`), each step keeps this, and a step that finishes has derived a datum. With both,
what is read is what the tokens write, spans and all (`writesAll_of_readAll`).
-/
namespace MiniScheme.Reader
open Grammar

/-- What a reader does after a step: it stops with a datum or reads on. -/
def resume (limit : Nat) : Progress → List Item → Except ReadError Datum × List Item
  | .done d, rest => (.ok d, rest)
  | .more s, rest => readFrom limit s rest

/-- Tokens as the items of a text without lexical errors. -/
def asItems (p : List Token) : List Item := p.map .ok

@[simp] theorem asItems_nil : asItems [] = [] := rfl

@[simp] theorem asItems_cons (t : Token) (p : List Token) : asItems (t :: p) = .ok t :: asItems p :=
  rfl

@[simp] theorem asItems_append (p q : List Token) : asItems (p ++ q) = asItems p ++ asItems q :=
  List.map_append

theorem readFrom_step {limit : Nat} {s : State} {t : Token} {next : Progress} (rest : List Item)
    (step : step limit s t = .ok next) :
    readFrom limit s (.ok t :: rest) = resume limit next rest := by
  rw [readFrom, step]
  cases next <;> rfl

theorem step_opener (limit : Nat) {t : Token} {b : Bracket} (stack : List Pending)
    (opens : t.kind = .opener b) (room : stack.length < limit) :
    step limit (.expecting stack) t = .ok (.more (.expecting (.list t b [] :: stack))) := by
  simp only [step, opens, enter]
  rw [if_neg (Nat.not_le.mpr room)]

theorem step_mark (limit : Nat) {t : Token} (stack : List Pending) (marks : t.kind = .quote)
    (room : stack.length < limit) :
    step limit (.expecting stack) t = .ok (.more (.expecting (.quote t :: stack))) := by
  simp only [step, marks, enter]
  rw [if_neg (Nat.not_le.mpr room)]

/-- A dot is taken after at least one element. -/
theorem step_dot (limit : Nat) {t : Token} (o : Token) (b : Bracket) {elements : List Datum}
    (stack : List Pending) (isDot : t.kind = .dot) (nonempty : elements ≠ []) :
    step limit (.expecting (.list o b elements :: stack)) t =
      .ok (.more (.expecting (.dotted o b elements :: stack))) := by
  obtain ⟨e, es, shape⟩ := List.exists_cons_of_ne_nil nonempty
  simp [step, isDot, dot, shape]

/-- The elements of a list are kept last first. -/
theorem finish_reverse (o c : Token) (ds : List Datum) (tail : Datum) :
    finish o ds.reverse tail c.span.stop = bracketed o c ds tail := by
  rw [finish, List.reverse_reverse, bracketed]

mutual

/-- A datum that is written is read from any stack that leaves room for its depth. -/
theorem readFrom_writes (limit : Nat) {w : List Token} {n : Datum} {k : Nat} {parts : List Datum} :
    Writes w n k parts → ∀ stack rest, stack.length + k ≤ limit →
      readFrom limit (.expecting stack) (asItems w ++ rest) = resume limit (feed n stack) rest
  | .atom isAtom => by
    intro stack rest _
    exact readFrom_step rest (by simp [step, isAtom])
  | @Writes.list o c b _ ns _ _ opens inner closes => by
    intro stack rest room
    have reads := readFrom_writesAll limit inner
    have entered := step_opener limit stack opens (by omega)
    have closed : step limit (.expecting (.list o b ns.reverse :: stack)) c =
        .ok (feed (bracketed o c ns (ending c)) stack) := by
      rw [← finish_reverse]
      simp [step, closes, close, ending]
    simp only [asItems_cons, asItems_append, List.cons_append, List.append_assoc, asItems_nil,
      List.nil_append]
    rw [readFrom_step _ entered, resume, reads o b [] stack _ (by omega), List.append_nil,
      readFrom_step _ closed]
  | @Writes.dotted o _ c b _ _ ns _ _ n _ _ opens inner nonempty isDot last closes => by
    intro stack rest room
    have reads := readFrom_writesAll limit inner
    have readsLast := readFrom_writes limit last
    have entered := step_opener limit stack opens (by omega)
    have elements : ns.reverse ≠ [] := by simpa using nonempty
    have dotted := step_dot limit o b stack isDot elements
    have closed : step limit (.closing o b ns.reverse n stack) c =
        .ok (feed (bracketed o c ns n) stack) := by
      rw [← finish_reverse]
      simp [step, closes]
    simp only [asItems_cons, asItems_append, List.cons_append, List.append_assoc, asItems_nil,
      List.nil_append]
    rw [readFrom_step _ entered, resume, reads o b [] stack _ (by omega), List.append_nil,
      readFrom_step _ dotted, resume, readsLast _ _ (by simp only [List.length_cons]; omega), feed,
      resume, readFrom_step _ closed]
  | .quote marks inner => by
    intro stack rest room
    have reads := readFrom_writes limit inner
    have entered := step_mark limit stack marks (by omega)
    rw [asItems_cons, List.cons_append, readFrom_step _ entered, resume,
      reads _ _ (by simp only [List.length_cons]; omega), feed]

/-- Data that are written one after another become elements of the innermost list. -/
theorem readFrom_writesAll (limit : Nat) {w : List Token} {ns : List Datum} {k : Nat}
    {parts : List Datum} :
    WritesAll w ns k parts → ∀ o b elements stack rest, stack.length + 1 + k ≤ limit →
      readFrom limit (.expecting (.list o b elements :: stack)) (asItems w ++ rest) =
        readFrom limit (.expecting (.list o b (ns.reverse ++ elements) :: stack)) rest
  | .nil => fun _ _ _ _ _ _ => rfl
  | .cons head tail => by
    intro o b elements stack rest room
    have reads := readFrom_writes limit head
    have readsTail := readFrom_writesAll limit tail
    rw [asItems_append, List.append_assoc, reads _ _ (by simp only [List.length_cons]; omega), feed,
      resume, readsTail _ _ _ _ _ (by omega)]
    simp

end

/-- A datum of the grammar is read from any stack that leaves room for its depth. -/
theorem readFrom_derives (limit : Nat) {w : List Token} {d : Datum} {k : Nat}
    (derived : Derives w d k) : ∃ n : Datum, n.erase = d ∧ ∀ stack rest, stack.length + k ≤ limit →
      readFrom limit (.expecting stack) (asItems w ++ rest) = resume limit (feed n stack) rest := by
  obtain ⟨n, parts, writes, denoted⟩ := exists_writes derived
  exact ⟨n, denoted, readFrom_writes limit writes⟩

/-- Data of the grammar one after another become elements of the innermost list. -/
theorem readFrom_derivesAll (limit : Nat) {w : List Token} {ds : List Datum} {k : Nat}
    (derived : DerivesAll w ds k) : ∃ ns : List Datum, ns.map Sexpr.erase = ds ∧
      ∀ o b elements stack rest, stack.length + 1 + k ≤ limit →
        readFrom limit (.expecting (.list o b elements :: stack)) (asItems w ++ rest) =
          readFrom limit (.expecting (.list o b (ns.reverse ++ elements) :: stack)) rest := by
  obtain ⟨ns, parts, writes, denoted⟩ := exists_writesAll derived
  exact ⟨ns, denoted, readFrom_writesAll limit writes⟩

/-- The tokens that a stack stands for, outermost first. Each list on it was opened within the limit
and the data in it so far fit too. -/
inductive StackSpells (limit : Nat) : List Pending → List Token → Prop where
  | empty : StackSpells limit [] []
  | list {stack : List Pending} {p q : List Token} {o : Token} {b : Bracket}
      {elements : List Datum} {k : Nat} (outer : StackSpells limit stack p)
      (opens : o.kind = .opener b) (inner : DerivesAll q (elements.reverse.map Sexpr.erase) k)
      (room : stack.length + 1 + k ≤ limit) :
      StackSpells limit (.list o b elements :: stack) (p ++ o :: q)
  | dotted {stack : List Pending} {p q : List Token} {o t : Token} {b : Bracket}
      {elements : List Datum} {k : Nat} (outer : StackSpells limit stack p)
      (opens : o.kind = .opener b) (inner : DerivesAll q (elements.reverse.map Sexpr.erase) k)
      (room : stack.length + 1 + k ≤ limit) (nonempty : elements ≠ []) (isDot : t.kind = .dot) :
      StackSpells limit (.dotted o b elements :: stack) (p ++ o :: (q ++ [t]))
  | quote {stack : List Pending} {p : List Token} {m : Token} (outer : StackSpells limit stack p)
      (marks : m.kind = .quote) (room : stack.length + 1 ≤ limit) :
      StackSpells limit (.quote m :: stack) (p ++ [m])

/-- The tokens consumed when a reader is in a state. -/
inductive Spells (limit : Nat) : State → List Token → Prop where
  | expecting {stack : List Pending} {p : List Token} (spelled : StackSpells limit stack p) :
      Spells limit (.expecting stack) p
  | closing {stack : List Pending} {p q r : List Token} {o t : Token} {b : Bracket}
      {elements : List Datum} {tail : Datum} {k j : Nat} (outer : StackSpells limit stack p)
      (opens : o.kind = .opener b) (inner : DerivesAll q (elements.reverse.map Sexpr.erase) k)
      (nonempty : elements ≠ []) (isDot : t.kind = .dot) (last : Derives r tail.erase j)
      (room : stack.length + 1 + max k j ≤ limit) :
      Spells limit (.closing o b elements tail stack) (p ++ o :: (q ++ t :: r))

/-- The tokens consumed after a step: they spell the next state, or they are the datum. -/
def Accounts (limit : Nat) : Progress → List Token → Prop
  | .more s, p => Spells limit s p
  | .done d, p => ∃ k, Derives p d.erase k ∧ k ≤ limit

theorem spells_start (limit : Nat) : Spells limit (.expecting []) [] := .expecting .empty

theorem StackSpells.length_le {limit : Nat} {stack : List Pending} {p : List Token}
    (spelled : StackSpells limit stack p) : stack.length ≤ limit := by
  cases spelled <;> simp only [List.length_nil, List.length_cons] <;> omega

theorem feed_accounts {limit : Nat} {stack : List Pending} {p w : List Token} {n : Datum} {k : Nat}
    (spelled : StackSpells limit stack p) (derived : Derives w n.erase k)
    (room : stack.length + k ≤ limit) : Accounts limit (feed n stack) (p ++ w) := by
  induction spelled generalizing w n k with
  | empty =>
    rw [List.length_nil, Nat.zero_add] at room
    exact ⟨k, derived, room⟩
  | @list stack p q o b elements j outer opens inner fits ih =>
    have longer : DerivesAll (q ++ w) ((n :: elements).reverse.map Sexpr.erase) (max j k) := by
      simpa using derivesAll_snoc inner derived
    rw [List.length_cons] at room
    have spelled := StackSpells.list outer opens longer (by omega)
    rw [List.append_assoc, List.cons_append]
    exact .expecting spelled
  | @dotted stack p q o t b elements j outer opens inner fits nonempty isDot ih =>
    rw [List.length_cons] at room
    simp only [List.append_assoc, List.cons_append, List.nil_append]
    exact .closing outer opens inner nonempty isDot derived (by omega)
  | @quote stack p m outer marks fits ih =>
    have quoted : Derives (m :: w) (Datum.quoted m.span n).erase (k + 1) := .quote marks derived
    rw [List.length_cons] at room
    rw [List.append_assoc, List.cons_append, List.nil_append]
    exact ih quoted (by omega)

theorem close_accounts {limit : Nat} {stack : List Pending} {p : List Token} {t : Token}
    {b : Bracket} {next : Progress} (spelled : StackSpells limit stack p)
    (closes : t.kind = .closer b) (success : close t b stack = .ok next) :
    Accounts limit next (p ++ [t]) := by
  cases spelled with
  | empty => cases success
  | dotted => cases success
  | quote => cases success
  | @list stack p q o b' elements k outer opens inner fits =>
    simp only [close] at success
    split at success
    · next same =>
      subst same
      cases success
      have derived : Derives (o :: (q ++ [t]))
          (finish o elements (.nil ⟨t.span.stop - 1, t.span.stop⟩) t.span.stop).erase (k + 1) := by
        rw [erase_finish]
        exact .list opens inner closes
      rw [List.append_assoc, List.cons_append]
      exact feed_accounts outer derived (by omega)
    · cases success

theorem dot_accounts {limit : Nat} {stack : List Pending} {p : List Token} {t : Token}
    {next : Progress} (spelled : StackSpells limit stack p) (isDot : t.kind = .dot)
    (success : dot t stack = .ok next) : Accounts limit next (p ++ [t]) := by
  cases spelled with
  | empty => cases success
  | dotted => cases success
  | quote => cases success
  | @list stack p q o b elements k outer opens inner fits =>
    cases elements with
    | nil => cases success
    | cons e es =>
      cases success
      rw [List.append_assoc, List.cons_append]
      exact .expecting (.dotted outer opens inner fits (List.cons_ne_nil e es) isDot)

/-- One token more: the state after it spells it too, or it completes a datum within the limit. -/
theorem step_accounts {limit : Nat} {s : State} {p : List Token} {t : Token} {next : Progress}
    (spelled : Spells limit s p) (success : step limit s t = .ok next) :
    Accounts limit next (p ++ [t]) := by
  cases spelled with
  | @expecting stack p spelled =>
    cases kind : t.kind with
    | atom a =>
      simp only [step, kind] at success
      cases success
      exact feed_accounts spelled (.atom kind) spelled.length_le
    | opener b =>
      simp only [step, kind, enter] at success
      split at success
      · cases success
      · cases success
        exact .expecting (.list spelled kind .nil (by omega))
    | quote =>
      simp only [step, kind, enter] at success
      split at success
      · cases success
      · cases success
        exact .expecting (.quote spelled kind (by omega))
    | closer b =>
      simp only [step, kind] at success
      exact close_accounts spelled kind success
    | dot =>
      simp only [step, kind] at success
      exact dot_accounts spelled kind success
  | @closing stack p q r o d b elements tail k j outer opens inner nonempty isDot last room =>
    simp only [step] at success
    split at success
    · next closes =>
      cases success
      have derived : Derives (o :: (q ++ d :: (r ++ [t])))
          (finish o elements tail t.span.stop).erase (max k j + 1) := by
        have nonempty' : elements.reverse.map Sexpr.erase ≠ [] := by simpa using nonempty
        rw [erase_finish]
        exact .dotted opens inner nonempty' isDot last closes
      have accounted := feed_accounts outer derived (by omega)
      simpa only [List.append_assoc, List.cons_append] using accounted
    · cases success

/-- How reading from a state ends: with a datum, at a token or a lexical error, or at the end of the
items. `w` is what was consumed before the end, and `stop` the state it led to. -/
inductive Outcome (limit : Nat) (s : State) (p : List Token) (items : List Item) : Prop where
  | done (w : List Token) (rest : List Item) (n : Datum) (k : Nat)
      (split : items = asItems w ++ rest) (result : readFrom limit s items = (.ok n, rest))
      (derived : Derives (p ++ w) n.erase k) (fits : k ≤ limit)
  | refused (w : List Token) (t : Token) (rest : List Item) (stop : State) (e : ReadError)
      (split : items = asItems w ++ .ok t :: rest)
      (result : readFrom limit s items = (.error e, rest)) (spelled : Spells limit stop (p ++ w))
      (reached : ∀ more, readFrom limit s (asItems w ++ more) = readFrom limit stop more)
      (error : step limit stop t = .error e)
  | lexical (w : List Token) (rest : List Item) (stop : State) (e : LexicalError)
      (split : items = asItems w ++ .error e :: rest)
      (result : readFrom limit s items = (.error (.lexical e), rest))
      (spelled : Spells limit stop (p ++ w))
  | ended (w : List Token) (stop : State) (split : items = asItems w)
      (result : readFrom limit s items = (.error stop.unfinished, []))
      (spelled : Spells limit stop (p ++ w))

/-- Every run ends in one of the four ways. -/
theorem readFrom_outcome {limit : Nat} {s : State} {p : List Token} (items : List Item)
    (spelled : Spells limit s p) : Outcome limit s p items := by
  induction items generalizing s p with
  | nil => exact .ended [] s rfl rfl (by simpa using spelled)
  | cons item rest ih =>
    cases item with
    | error e => exact .lexical [] rest s e rfl rfl (by simpa using spelled)
    | ok t =>
      cases stepped : step limit s t with
      | error e =>
        have result : readFrom limit s (.ok t :: rest) = (.error e, rest) := by
          rw [readFrom, stepped]
        exact .refused [] t rest s e rfl result (by simpa using spelled) (fun _ => rfl) stepped
      | ok next =>
        have accounted := step_accounts spelled stepped
        cases next with
        | done n =>
          obtain ⟨k, derived, fits⟩ := accounted
          exact .done [t] rest n k rfl (readFrom_step rest stepped) derived fits
        | more s' =>
          have first : ∀ more, readFrom limit s (.ok t :: more) = readFrom limit s' more :=
            fun more => readFrom_step more stepped
          cases ih accounted with
          | done w rest' n k split result derived fits =>
            refine .done (t :: w) rest' n k (by rw [split]; rfl) (by rw [first, result]) ?_ fits
            simpa using derived
          | refused w t' rest' stop e split result spelled' reached error =>
            refine .refused (t :: w) t' rest' stop e (by rw [split]; rfl) (by rw [first, result])
              (by simpa using spelled') ?_ error
            intro more
            rw [asItems_cons, List.cons_append, first, reached]
          | lexical w rest' stop e split result spelled' =>
            exact .lexical (t :: w) rest' stop e (by rw [split]; rfl) (by rw [first, result])
              (by simpa using spelled')
          | ended w stop split result spelled' =>
            exact .ended (t :: w) stop (by rw [split]; rfl) (by rw [first, result])
              (by simpa using spelled')

theorem asItems_injective {p q : List Token} (same : asItems p = asItems q) : p = q :=
  (List.map_inj_right fun _ _ equal => Except.ok.inj equal).mp same

theorem asItems_eq_append {tokens p : List Token} {rest : List Item}
    (split : asItems tokens = asItems p ++ rest) : ∃ q, tokens = p ++ q ∧ rest = asItems q := by
  obtain ⟨front, q, rfl, same, rfl⟩ := List.map_eq_append_iff.mp split
  exact ⟨q, by rw [asItems_injective same], rfl⟩

theorem read_of_writes {limit : Nat} {p : List Token} {n : Datum} {k : Nat} {parts : List Datum}
    (rest : List Item) (writes : Writes p n k parts) (fits : k ≤ limit) :
    read limit (asItems p ++ rest) = (.ok n, rest) :=
  readFrom_writes limit writes [] rest (by simpa using fits)

theorem read_of_derives {limit : Nat} {p : List Token} {d : Datum} {k : Nat} (rest : List Item)
    (derived : Derives p d k) (fits : k ≤ limit) :
    ∃ n : Datum, read limit (asItems p ++ rest) = (.ok n, rest) ∧ n.erase = d := by
  obtain ⟨n, parts, writes, denoted⟩ := exists_writes derived
  exact ⟨n, read_of_writes rest writes fits, denoted⟩

theorem derives_of_read {limit : Nat} {items rest : List Item} {n : Datum}
    (success : read limit items = (.ok n, rest)) :
    ∃ p k, items = asItems p ++ rest ∧ Derives p n.erase k ∧ k ≤ limit := by
  cases readFrom_outcome items (spells_start limit) with
  | done w rest' n' k split result derived fits =>
    rw [read, result] at success
    cases success
    exact ⟨w, k, split, derived, fits⟩
  | refused w t rest' stop e split result spelled reached error =>
    rw [read, result] at success
    cases success
  | lexical w rest' stop e split result spelled =>
    rw [read, result] at success
    cases success
  | ended w stop split result spelled =>
    rw [read, result] at success
    cases success

/-- What is read is what the tokens write. -/
theorem writes_of_read {limit : Nat} {items rest : List Item} {n : Datum}
    (success : read limit items = (.ok n, rest)) :
    ∃ p k parts, items = asItems p ++ rest ∧ Writes p n k parts ∧ k ≤ limit := by
  obtain ⟨p, k, rfl, derived, fits⟩ := derives_of_read success
  obtain ⟨n', parts, writes, -⟩ := exists_writes derived
  rw [read_of_writes rest writes fits] at success
  cases success
  exact ⟨p, k, parts, rfl, writes, fits⟩

/-- The same for all data of a text. -/
theorem writesAll_of_readAll {limit : Nat} {items : List Item} : ∀ {nodes : List Datum},
    readAll limit items = nodes.map .ok →
      ∃ p k parts, items = asItems p ∧ WritesAll p nodes k parts ∧ k ≤ limit := by
  fun_induction readAll limit items
  case case1 =>
    intro nodes success
    obtain rfl := List.map_eq_nil_iff.mp success.symm
    exact ⟨[], 0, [], rfl, .nil, Nat.zero_le _⟩
  case case2 item rest result e failed =>
    intro nodes success
    obtain ⟨n, nodes, rfl, same, -⟩ := List.map_eq_cons_iff.mp success.symm
    cases same
  case case3 item rest result d first ih =>
    intro nodes success
    obtain ⟨n, nodes, rfl, same, later⟩ := List.map_eq_cons_iff.mp success.symm
    cases same
    obtain ⟨q, j, parts', items', writesLater, fitsLater⟩ := ih later.symm
    have reads : read limit (item :: rest) = (.ok d, asItems q) := Prod.ext first items'
    obtain ⟨p, k, parts, split, writes, fits⟩ := writes_of_read reads
    refine ⟨p ++ q, max k j, parts ++ parts', ?_, .cons writes writesLater,
      Nat.max_le.mpr ⟨fits, fitsLater⟩⟩
    rw [split, asItems_append]

/-- All readings are data if their list is. -/
theorem eq_map_ok_of_mapM {readings : List (Except ReadError Datum)} {data : List Datum}
    (success : readings.mapM id = .ok data) : readings = data.map .ok := by
  induction readings generalizing data with
  | nil =>
    cases success
    rfl
  | cons reading rest ih =>
    rw [List.mapM_cons] at success
    cases reading with
    | error e => cases success
    | ok d =>
      cases later : rest.mapM id with
      | error e =>
        rw [later] at success
        cases success
      | ok ds =>
        rw [later] at success
        cases success
        rw [ih later]
        rfl

/-- What is read to its end without an error are tokens of data one after another. -/
theorem derivesAll_of_readAll {limit : Nat} {items : List Item}
    (clean : ∀ e, .error e ∉ readAll limit items) :
    ∃ p ds k, items = asItems p ∧ DerivesAll p ds k := by
  fun_induction readAll limit items with
  | case1 => exact ⟨[], [], 0, rfl, .nil⟩
  | case2 item rest result e failed => exact absurd List.mem_cons_self (clean e)
  | case3 item rest result d success ih =>
    obtain ⟨q, ds, j, items', later⟩ := ih fun e member => clean e (List.mem_cons_of_mem _ member)
    have reads : read limit (item :: rest) = (.ok d, asItems q) := Prod.ext success items'
    obtain ⟨p, k, split, derived, -⟩ := derives_of_read reads
    refine ⟨p ++ q, d.erase :: ds, max k j, ?_, .cons derived later⟩
    rw [split, asItems_append]

/-- No datum begins with another, and no tokens denote two data. -/
theorem derives_unique {p p' q q' : List Token} {d d' : Datum} {k k' : Nat}
    (left : Derives p d k) (right : Derives p' d' k') (same : p ++ q = p' ++ q') :
    p = p' ∧ d = d' := by
  obtain ⟨n, readLeft, denotesLeft⟩ :=
    read_of_derives (asItems q) left (Nat.le_max_left k k')
  obtain ⟨n', readRight, denotesRight⟩ :=
    read_of_derives (asItems q') right (Nat.le_max_right k k')
  rw [← asItems_append] at readLeft readRight
  rw [same, readRight] at readLeft
  simp only [Prod.mk.injEq, Except.ok.injEq] at readLeft
  obtain ⟨equal, restEqual⟩ := readLeft
  rw [← asItems_injective restEqual] at same
  exact ⟨List.append_cancel_right same, by rw [← denotesLeft, ← denotesRight, equal]⟩

theorem next_of_nonempty (r : Reader) (nonempty : r.items ≠ []) :
    r.next = (some (read r.limit r.items).1, { r with items := (read r.limit r.items).2 }) := by
  unfold next
  split
  · next empty => exact absurd empty nonempty
  · rfl

theorem next_rest (r : Reader) : r.next.2 = { r with items := (read r.limit r.items).2 } := by
  by_cases empty : r.items = []
  · obtain ⟨limit, items, failed⟩ := r
    subst empty
    rfl
  · rw [next_of_nonempty r empty]

theorem next_eq_none_iff (r : Reader) : r.next.1 = none ↔ r.items = [] := by
  constructor
  · intro ended
    by_cases empty : r.items = []
    · exact empty
    · rw [next_of_nonempty r empty] at ended
      cases ended
  · intro empty
    simp [next, empty]

theorem next_eq_ok_iff (r : Reader) (n : Datum) (rest : List Item) :
    r.next = (some (.ok n), { r with items := rest }) ↔ read r.limit r.items = (.ok n, rest) := by
  by_cases empty : r.items = []
  · simp [next, empty, read, readFrom]
  · rw [next_of_nonempty r empty]
    simp [Prod.ext_iff]

/-- On tokens without lexical errors the next datum is read from a part `p` at their front exactly
if `p` is a datum of the grammar within the limit, and it is then the datum that `p` denotes. There
is at most one such part. The reader is at its end exactly if there are no tokens. -/
theorem next_accepts_grammar (limit : Nat) (failed : Bool) (tokens : List Token) :
    let r : Reader := ⟨limit, asItems tokens, failed⟩
    (∀ p q d, tokens = p ++ q →
      ((∃ n : Datum, r.next = (some (.ok n), { r with items := asItems q }) ∧ n.erase = d) ↔
        ∃ k, Derives p d k ∧ k ≤ limit)) ∧
    (∀ n r', r.next = (some (.ok n), r') →
      ∃ p q, tokens = p ++ q ∧ r' = { r with items := asItems q }) ∧
    (∀ p p' d d' k k', p <+: tokens → p' <+: tokens → Derives p d k → Derives p' d' k' →
      p = p' ∧ d = d') ∧
    (r.next.1 = none ↔ tokens = []) := by
  intro r
  refine ⟨?_, ?_, ?_, ?_⟩
  · intro p q d split
    have items : r.items = asItems p ++ asItems q := by rw [← asItems_append, ← split]
    constructor
    · rintro ⟨n, success, rfl⟩
      rw [next_eq_ok_iff] at success
      obtain ⟨w, k, consumed, derived, fits⟩ := derives_of_read success
      rw [items] at consumed
      rw [asItems_injective (List.append_cancel_right consumed)]
      exact ⟨k, derived, fits⟩
    · rintro ⟨k, derived, fits⟩
      obtain ⟨n, success, denoted⟩ := read_of_derives (asItems q) derived fits
      refine ⟨n, ?_, denoted⟩
      rw [next_eq_ok_iff, items]
      exact success
  · intro n r' success
    have shape : r' = { r with items := (read limit r.items).2 } := by
      rw [← next_rest r, success]
    rw [shape, next_eq_ok_iff] at success
    obtain ⟨p, k, consumed, -, -⟩ := derives_of_read success
    obtain ⟨q, split, rest⟩ := asItems_eq_append consumed
    exact ⟨p, q, split, by rw [shape, rest]⟩
  · intro p p' d d' k k' front front' left right
    obtain ⟨q, split⟩ := front
    obtain ⟨q', split'⟩ := front'
    exact derives_unique left right (split.trans split'.symm)
  · rw [next_eq_none_iff]
    exact List.map_eq_nil_iff

/-- The first five tokens of `(a . b) c` are a pair and nothing else at the front is a datum. The
pair is read if one level may be nested, and refused if none may. -/
theorem next_accepts_grammar_of_pair :
    let token (kind : Token.Kind) : Token := ⟨kind, default, 1⟩
    let name (text : String) : Token := token (.atom (.symbol text))
    let p := [token (.opener .round), name "a", token .dot, name "b", token (.closer .round)]
    let q := [name "c"]
    let d := Datum.cons default (.atom default (.symbol "a")) (.atom default (.symbol "b"))
    let r (limit : Nat) : Reader := ⟨limit, asItems (p ++ q), false⟩
    Derives p d 1 ∧
    (∃ n, (r 1).next = (some (.ok n), { r 1 with items := asItems q }) ∧ n.erase = d) ∧
    (¬ ∃ n, (r 0).next = (some (.ok n), { r 0 with items := asItems q }) ∧ n.erase = d) ∧
    (∀ p' d' k, p' <+: p ++ q → Derives p' d' k → p' = p ∧ d' = d) ∧
    (r 1).next.1 ≠ none := by
  intro token name p q d r
  have one : DerivesAll [name "a"] [.atom default (.symbol "a")] 0 := .cons (.atom rfl) .nil
  have derived : Derives p d 1 :=
    .dotted (o := token (.opener .round)) rfl one (List.cons_ne_nil _ _) rfl (.atom rfl) rfl
  have flat : ∀ w e, Derives w e 0 → w.length = 1 := by
    rintro w e ⟨⟩
    rfl
  obtain ⟨accepts, -, unique, ended⟩ := next_accepts_grammar 1 false (p ++ q)
  obtain ⟨refuses, -, -, -⟩ := next_accepts_grammar 0 false (p ++ q)
  refine ⟨derived, (accepts p q d rfl).mpr ⟨1, derived, Nat.le_refl 1⟩, ?_, ?_, ?_⟩
  · intro accepted
    obtain ⟨k, derived', none⟩ := (refuses p q d rfl).mp accepted
    obtain rfl := Nat.le_zero.mp none
    cases flat p d derived'
  · intro p' d' k front derived'
    exact unique p' p d' d k 1 front (List.prefix_append p q) derived' derived
  · intro none
    cases ended.mp none

end MiniScheme.Reader
