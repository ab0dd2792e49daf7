import MiniScheme.Proofs.Datum.Acceptance

/-!
# The reader stops at the earliest error and names it

An error token is the first after which no datum within the limit is possible any more: what was
consumed before it is `Viable`, since the stack can be closed from inside out, and what was consumed
with it is not, since the reader would have accepted any completion. At the end of the items the
error names the innermost list or mark that is not finished; `InnermostUnfinished` says what that
is in terms of the grammar alone.

The last part cuts the items of a reader into the segments that its calls consume.
-/
namespace MiniScheme.Reader
open Grammar

/-- An opening bracket or a quote mark. -/
def Opening (t : Token) : Prop :=
  match t.kind with
  | .opener _ | .quote => True
  | _ => False

/-- Some of the tokens, from the first on, are a datum. -/
def Begins (tokens : List Token) : Prop := ∃ p q, tokens = p ++ q ∧ IsDatum p

/-- No datum that begins at `t` is complete, and one is complete for each opening bracket and quote
mark after `t`. -/
def InnermostUnfinished (p : List Token) (t : Token) : Prop :=
  ∃ before after, p = before ++ t :: after ∧ Opening t ∧ ¬ Begins (t :: after) ∧
    ∀ u rest, u :: rest <:+ after → Opening u → Begins (u :: rest)

/-- What an error says of the items consumed, the last of them included, and of those left. -/
def Blames (limit : Nat) (consumed rest : List Item) : ReadError → Prop
  | .unexpected t _ | .nothingBeforeDot t | .tooDeep t _ =>
    ∃ p, consumed = asItems (p ++ [t]) ∧ Viable limit p ∧ ¬ Viable limit (p ++ [t])
  | .lexical e => ∃ p, consumed = asItems p ++ [.error e] ∧ Viable limit p
  | .unclosed o b =>
    ∃ p, consumed = asItems p ∧ rest = [] ∧ Viable limit p ∧ o.kind = .opener b ∧
      InnermostUnfinished p o
  | .nothingAfterQuote m =>
    ∃ p, consumed = asItems p ∧ rest = [] ∧ Viable limit p ∧ m.kind = .quote ∧
      InnermostUnfinished p m
  | .emptyInput => False

theorem viable_front {limit : Nat} {p q : List Token} (viable : Viable limit (p ++ q)) :
    Viable limit p := by
  obtain ⟨rest, d, k, derived, fits⟩ := viable
  exact ⟨q ++ rest, d, k, by rwa [← List.append_assoc], fits⟩

/-- A datum handed to a stack can be completed: each list on the way out is closed at once. -/
theorem StackSpells.viable {limit : Nat} {stack : List Pending} {p w : List Token} {d : Datum}
    {k : Nat} (spelled : StackSpells limit stack p) (derived : Derives w d k)
    (room : stack.length + k ≤ limit) : Viable limit (p ++ w) := by
  induction spelled generalizing w d k with
  | empty =>
    rw [List.length_nil, Nat.zero_add] at room
    exact ⟨[], d, k, by simpa using derived, room⟩
  | @list stack p q o b elements j outer opens inner fits ih =>
    rw [List.length_cons] at room
    have closed : Derives (o :: ((q ++ w) ++ [⟨.closer b, default, 0⟩])) _ _ :=
      .list opens (derivesAll_snoc inner derived) rfl
    have outside := ih closed (by omega)
    apply viable_front (q := [⟨.closer b, default, 0⟩])
    simpa only [List.append_assoc, List.cons_append] using outside
  | @dotted stack p q o t b elements j outer opens inner fits nonempty isDot ih =>
    rw [List.length_cons] at room
    have elements' : elements.reverse.map Sexpr.erase ≠ [] := by simpa using nonempty
    have closed : Derives (o :: (q ++ t :: (w ++ [⟨.closer b, default, 0⟩]))) _ _ :=
      .dotted opens inner elements' isDot derived rfl
    have outside := ih closed (by omega)
    apply viable_front (q := [⟨.closer b, default, 0⟩])
    simpa only [List.append_assoc, List.cons_append, List.nil_append] using outside
  | @quote stack p m outer marks fits ih =>
    rw [List.length_cons] at room
    have outside := ih (Derives.quote marks derived) (by omega)
    simpa only [List.append_assoc, List.cons_append, List.nil_append] using outside

/-- What a state spells can be completed, by an atom or a closing bracket and what closes the
stack. -/
theorem Spells.viable {limit : Nat} {s : State} {p : List Token} (spelled : Spells limit s p) :
    Viable limit p := by
  cases spelled with
  | expecting spelled =>
    have atom : Derives [⟨.atom (.boolean true), default, 0⟩] _ 0 := .atom rfl
    exact viable_front (spelled.viable atom spelled.length_le)
  | @closing stack p q r o t b elements tail k j outer opens inner nonempty isDot last room =>
    have elements' : elements.reverse.map Sexpr.erase ≠ [] := by simpa using nonempty
    have closed : Derives (o :: (q ++ t :: (r ++ [⟨.closer b, default, 0⟩]))) _ _ :=
      .dotted opens inner elements' isDot last rfl
    have outside := outer.viable closed (by omega)
    apply viable_front (q := [⟨.closer b, default, 0⟩])
    simpa only [List.append_assoc, List.cons_append, List.nil_append] using outside

/-- A completion of the tokens would have been read past the token that was refused. -/
theorem not_viable_of_refused {limit : Nat} {w : List Token} {t : Token} {stop : State}
    {e : ReadError}
    (reached : ∀ more, read limit (asItems w ++ more) = readFrom limit stop more)
    (error : step limit stop t = .error e) : ¬ Viable limit (w ++ [t]) := by
  rintro ⟨q, d, k, derived, fits⟩
  obtain ⟨n, success, -⟩ := read_of_derives [] derived fits
  simp only [asItems_append, asItems_cons, List.append_assoc, List.cons_append, List.nil_append,
    List.append_nil] at success
  rw [reached, readFrom, error] at success
  cases success

/-- The errors of a step, each with the token of the step. -/
theorem step_error {limit : Nat} {s : State} {t : Token} {e : ReadError}
    (error : step limit s t = .error e) :
    (∃ expected, e = .unexpected t expected) ∨ e = .nothingBeforeDot t ∨ e = .tooDeep t limit := by
  unfold step at error
  split at error
  · split at error
    · cases error
    · unfold enter at error
      split at error <;> cases error
      exact .inr (.inr rfl)
    · unfold enter at error
      split at error <;> cases error
      exact .inr (.inr rfl)
    · unfold close at error
      split at error
      · split at error <;> cases error
        exact .inl ⟨_, rfl⟩
      · cases error
        exact .inl ⟨_, rfl⟩
    · unfold dot at error
      split at error <;> cases error
      · exact .inr (.inl rfl)
      · exact .inl ⟨_, rfl⟩
  · split at error <;> cases error
    exact .inl ⟨_, rfl⟩

theorem begins_append {p : List Token} (q : List Token) (begins : Begins p) : Begins (p ++ q) := by
  obtain ⟨front, rest, rfl, datum⟩ := begins
  exact ⟨front, rest ++ q, List.append_assoc front rest q, datum⟩

theorem suffix_append_cases {u : Token} {rest p q : List Token} (ends : u :: rest <:+ p ++ q) :
    u :: rest <:+ q ∨ ∃ inner, rest = inner ++ q ∧ u :: inner <:+ p := by
  obtain ⟨before, split⟩ := ends
  rcases List.append_eq_append_iff.mp split with ⟨middle, left, right⟩ | ⟨middle, left, right⟩
  · cases middle with
    | nil => exact .inl ⟨[], by simpa using right⟩
    | cons v vs =>
      cases right
      exact .inr ⟨vs, rfl, before, left.symm⟩
  · exact .inl ⟨middle, right.symm⟩

theorem begins_before_closer {u c : Token} {rest p : List Token} {b : Bracket}
    (closes : c.kind = .closer b) (opening : Opening u) (ends : u :: rest <:+ p ++ [c])
    (inside : ∀ inner, u :: inner <:+ p → Begins (u :: inner)) : Begins (u :: rest) := by
  rcases suffix_append_cases ends with last | ⟨inner, rfl, ends'⟩
  · rcases List.suffix_cons_iff.mp last with same | none
    · cases same
      simp [Opening, closes] at opening
    · cases List.suffix_nil.mp none
  · exact begins_append [c] (inside inner ends')

theorem begins_around_dot {u t : Token} {rest q r : List Token} (isDot : t.kind = .dot)
    (opening : Opening u) (ends : u :: rest <:+ q ++ t :: r)
    (before : ∀ inner, u :: inner <:+ q → Begins (u :: inner))
    (after : u :: rest <:+ r → Begins (u :: rest)) : Begins (u :: rest) := by
  rcases suffix_append_cases ends with ends' | ⟨inner, rfl, ends'⟩
  · rcases List.suffix_cons_iff.mp ends' with same | ends''
    · cases same
      simp [Opening, isDot] at opening
    · exact after ends''
  · exact begins_append _ (before inner ends')

mutual

/-- In the tokens of a datum a complete datum begins at each opening bracket and quote mark. -/
theorem begins_of_derives {w : List Token} {d : Datum} {k : Nat} :
    Derives w d k → ∀ u rest, u :: rest <:+ w → Opening u → Begins (u :: rest)
  | .atom isAtom, u, rest, ends, opening => by
    rcases List.suffix_cons_iff.mp ends with same | none
    · cases same
      simp [Opening, isAtom] at opening
    · cases List.suffix_nil.mp none
  | .list (o := o) (c := c) (p := p) opens inner closes, u, rest, ends, opening => by
    rcases List.suffix_cons_iff.mp ends with same | ends'
    · cases same
      exact ⟨o :: (p ++ [c]), [], by simp, _, _, .list opens inner closes⟩
    · exact begins_before_closer closes opening ends'
        fun inside ends'' => begins_of_derivesAll inner u inside ends'' opening
  | .dotted (o := o) (t := t) (c := c) (p := p) (q := q) opens inner nonempty isDot last closes,
      u, rest, ends, opening => by
    rcases List.suffix_cons_iff.mp ends with same | ends'
    · cases same
      exact ⟨o :: (p ++ t :: (q ++ [c])), [], by simp, _, _,
        .dotted opens inner nonempty isDot last closes⟩
    · apply begins_around_dot isDot opening ends'
      · intro inside ends''
        exact begins_of_derivesAll inner u inside ends'' opening
      · intro after
        exact begins_before_closer closes opening after
          fun inside ends'' => begins_of_derives last u inside ends'' opening
  | .quote (m := m) (p := p) marks inner, u, rest, ends, opening => by
    rcases List.suffix_cons_iff.mp ends with same | ends'
    · cases same
      exact ⟨m :: p, [], by simp, _, _, .quote marks inner⟩
    · exact begins_of_derives inner u rest ends' opening

theorem begins_of_derivesAll {w : List Token} {ds : List Datum} {k : Nat} :
    DerivesAll w ds k → ∀ u rest, u :: rest <:+ w → Opening u → Begins (u :: rest)
  | .nil, u, rest, ends, _ => by cases List.suffix_nil.mp ends
  | .cons head tail, u, rest, ends, opening => by
    rcases suffix_append_cases ends with later | ⟨inside, rfl, first⟩
    · exact begins_of_derivesAll tail u rest later opening
    · exact begins_append _ (begins_of_derives head u inside first opening)

end

/-- Tokens that a reader with room enough reads to their end without a datum begin none. -/
theorem not_begins_of_unfinished {tokens : List Token} (enough : Nat)
    (unfinished : ∀ limit, enough ≤ limit → ∃ e, read limit (asItems tokens) = (.error e, [])) :
    ¬ Begins tokens := by
  rintro ⟨p, q, rfl, d, k, derived⟩
  obtain ⟨e, failure⟩ := unfinished (max enough k) (Nat.le_max_left enough k)
  obtain ⟨n, success, -⟩ := read_of_derives (asItems q) derived (Nat.le_max_right enough k)
  rw [asItems_append, success] at failure
  cases failure

/-- After an opening bracket and data the reader is in the list, whatever the room above that. -/
theorem read_opened {limit k : Nat} {o : Token} {b : Bracket} {q : List Token} {ds : List Datum}
    (opens : o.kind = .opener b) (inner : DerivesAll q ds k) (room : k + 1 ≤ limit) :
    ∃ elements : List Datum, elements.reverse.map Sexpr.erase = ds ∧
      ∀ rest, read limit (asItems (o :: q) ++ rest) =
        readFrom limit (.expecting [.list o b elements]) rest := by
  obtain ⟨ns, denoted, reads⟩ := readFrom_derivesAll limit inner
  refine ⟨ns.reverse, by rwa [List.reverse_reverse], ?_⟩
  intro rest
  have entered := step_opener limit [] opens (by simp only [List.length_nil]; omega)
  rw [read, asItems_cons, List.cons_append, readFrom_step _ entered, resume,
    reads o b [] [] rest (by simp only [List.length_nil]; omega), List.append_nil]

/-- The same with a dot after the data. -/
theorem read_dotted {limit k : Nat} {o t : Token} {b : Bracket} {q : List Token} {ds : List Datum}
    (opens : o.kind = .opener b) (inner : DerivesAll q ds k) (nonempty : ds ≠ [])
    (isDot : t.kind = .dot) (room : k + 1 ≤ limit) :
    ∃ elements : List Datum, ∀ rest, read limit (asItems (o :: (q ++ [t])) ++ rest) =
      readFrom limit (.expecting [.dotted o b elements]) rest := by
  obtain ⟨elements, denoted, reads⟩ := read_opened opens inner room
  refine ⟨elements, ?_⟩
  intro rest
  have nonempty' : elements ≠ [] := by
    rintro rfl
    exact nonempty denoted.symm
  rw [← List.cons_append, asItems_append, List.append_assoc, reads, asItems_cons, List.cons_append,
    readFrom_step _ (step_dot limit o b [] isDot nonempty')]
  rfl

/-- The same with the datum after the dot. -/
theorem read_closing {limit k j : Nat} {o t : Token} {b : Bracket} {q r : List Token}
    {ds : List Datum} {d : Datum} (opens : o.kind = .opener b) (inner : DerivesAll q ds k)
    (nonempty : ds ≠ []) (isDot : t.kind = .dot) (last : Derives r d j)
    (room : max k j + 1 ≤ limit) :
    ∃ (elements : List Datum) (n : Datum), ∀ rest,
      read limit (asItems (o :: (q ++ t :: r)) ++ rest) =
        readFrom limit (.closing o b elements n []) rest := by
  have roomBefore : k + 1 ≤ limit := by omega
  obtain ⟨elements, reads⟩ := read_dotted opens inner nonempty isDot roomBefore
  obtain ⟨n, -, readsLast⟩ := readFrom_derives limit last
  refine ⟨elements, n, ?_⟩
  intro rest
  have split : o :: (q ++ t :: r) = o :: (q ++ [t]) ++ r := by simp
  rw [split, asItems_append, List.append_assoc, reads,
    readsLast _ _ (by simp only [List.length_cons, List.length_nil]; omega)]
  rfl

/-- The list or mark that a state has innermost is the innermost unfinished one of the tokens. -/
theorem Spells.innermost {limit : Nat} {s : State} {p : List Token} (spelled : Spells limit s p) :
    match s.unfinished with
    | .unclosed o b => o.kind = .opener b ∧ InnermostUnfinished p o
    | .nothingAfterQuote m => m.kind = .quote ∧ InnermostUnfinished p m
    | .emptyInput => p = []
    | _ => False := by
  cases spelled with
  | expecting spelled =>
    cases spelled with
    | empty => rfl
    | @list stack p q o b elements k outer opens inner room =>
      refine ⟨opens, p, q, rfl, by simp [Opening, opens], ?_, begins_of_derivesAll inner⟩
      apply not_begins_of_unfinished (k + 1)
      intro limit' enough
      obtain ⟨elements', -, reads⟩ := read_opened opens inner enough
      have ended := reads []
      rw [List.append_nil] at ended
      exact ⟨_, ended⟩
    | @dotted stack p q o t b elements k outer opens inner room nonempty isDot =>
      have nonempty' : elements.reverse.map Sexpr.erase ≠ [] := by simpa using nonempty
      refine ⟨opens, p, q ++ [t], rfl, by simp [Opening, opens], ?_, ?_⟩
      · apply not_begins_of_unfinished (k + 1)
        intro limit' enough
        obtain ⟨elements', reads⟩ := read_dotted opens inner nonempty' isDot enough
        have ended := reads []
        rw [List.append_nil] at ended
        exact ⟨_, ended⟩
      · intro u rest ends opening
        apply begins_around_dot isDot opening ends
        · intro inside before
          exact begins_of_derivesAll inner u inside before opening
        · intro none
          cases List.suffix_nil.mp none
    | @quote stack p m outer marks room =>
      refine ⟨marks, p, [], rfl, by simp [Opening, marks], ?_, ?_⟩
      · apply not_begins_of_unfinished 1
        intro limit' enough
        have entered := step_mark limit' [] marks enough
        exact ⟨_, readFrom_step [] entered⟩
      · intro u rest ends
        cases List.suffix_nil.mp ends
  | @closing stack p q r o t b elements tail k j outer opens inner nonempty isDot last room =>
    have nonempty' : elements.reverse.map Sexpr.erase ≠ [] := by simpa using nonempty
    refine ⟨opens, p, q ++ t :: r, rfl, by simp [Opening, opens], ?_, ?_⟩
    · apply not_begins_of_unfinished (max k j + 1)
      intro limit' enough
      obtain ⟨elements', n, reads⟩ := read_closing opens inner nonempty' isDot last enough
      have ended := reads []
      rw [List.append_nil] at ended
      exact ⟨_, ended⟩
    · intro u rest ends opening
      apply begins_around_dot isDot opening ends
      · intro inside before
        exact begins_of_derivesAll inner u inside before opening
      · intro after
        exact begins_of_derives last u rest after opening

/-- The error of a failed reading blames the right token and is raised at the first one possible. -/
theorem read_blames {limit : Nat} {items rest : List Item} {e : ReadError} (nonempty : items ≠ [])
    (failure : read limit items = (.error e, rest)) :
    ∃ consumed, items = consumed ++ rest ∧ Blames limit consumed rest e := by
  cases readFrom_outcome items (spells_start limit) with
  | done w rest' n k split result derived fits =>
    rw [read, result] at failure
    cases failure
  | refused w t rest' stop e' split result spelled reached error =>
    rw [read, result] at failure
    cases failure
    have before : Viable limit w := spelled.viable
    have after : ¬ Viable limit (w ++ [t]) := not_viable_of_refused reached error
    refine ⟨asItems (w ++ [t]), by simp [split], ?_⟩
    obtain ⟨expected, rfl⟩ | rfl | rfl := step_error error
    · exact ⟨w, rfl, before, after⟩
    · exact ⟨w, rfl, before, after⟩
    · exact ⟨w, rfl, before, after⟩
  | lexical w rest' stop e' split result spelled =>
    rw [read, result] at failure
    cases failure
    exact ⟨asItems w ++ [.error e'], by simp [split], w, rfl, spelled.viable⟩
  | ended w stop split result spelled =>
    rw [read, result] at failure
    cases failure
    refine ⟨asItems w, by rw [split, List.append_nil], ?_⟩
    have innermost := spelled.innermost
    rw [List.nil_append] at innermost
    cases unfinished : stop.unfinished with
    | unclosed o b =>
      rw [unfinished] at innermost
      exact ⟨w, rfl, rfl, spelled.viable, innermost⟩
    | nothingAfterQuote m =>
      rw [unfinished] at innermost
      exact ⟨w, rfl, rfl, spelled.viable, innermost⟩
    | emptyInput =>
      rw [unfinished] at innermost
      rw [split, innermost] at nonempty
      exact nonempty rfl
    | unexpected => simp [unfinished] at innermost
    | nothingBeforeDot => simp [unfinished] at innermost
    | tooDeep => simp [unfinished] at innermost
    | lexical => simp [unfinished] at innermost

/-- A reader after a number of calls. -/
def after : Nat → Reader → Reader
  | 0, r => r
  | calls + 1, r => after calls r.next.2

theorem read_consumes (limit : Nat) (items : List Item) :
    ∃ consumed, items = consumed ++ (read limit items).2 := by
  cases readFrom_outcome items (spells_start limit) with
  | done w rest n k split result derived fits =>
    exact ⟨asItems w, by rw [read, result]; exact split⟩
  | refused w t rest stop e split result spelled reached error =>
    exact ⟨asItems w ++ [.ok t], by rw [read, result, split]; simp⟩
  | lexical w rest stop e split result spelled =>
    exact ⟨asItems w ++ [.error e], by rw [read, result, split]; simp⟩
  | ended w stop split result spelled =>
    exact ⟨asItems w, by rw [read, result, split]; simp⟩

/-- A call on a reader that has items consumes at least one of them and leaves the others. -/
theorem next_consumes (r : Reader) (nonempty : r.items ≠ []) :
    ∃ consumed, consumed ≠ [] ∧ r.items = consumed ++ r.next.2.items := by
  obtain ⟨consumed, split⟩ := read_consumes r.limit r.items
  refine ⟨consumed, ?_, by rw [next_rest]; exact split⟩
  rintro rfl
  obtain ⟨item, rest, shape⟩ := List.exists_cons_of_ne_nil nonempty
  have shorter := length_read_cons r.limit item rest
  rw [← shape, ← List.nil_append (read r.limit r.items).2, ← split] at shorter
  exact Nat.lt_irrefl _ shorter

theorem next_of_empty (r : Reader) (empty : r.items = []) : r.next = (none, r) := by
  simp [next, empty]

/-- A call fails just if there are items and no tokens at their front are a datum within the
limit. -/
theorem next_fails_iff (r : Reader) :
    (∃ e r', r.next = (some (.error e), r')) ↔
      r.items ≠ [] ∧
        ∀ p rest d k, r.items = asItems p ++ rest → Derives p d k → r.limit < k := by
  by_cases empty : r.items = []
  · simp [next_of_empty r empty, empty]
  · rw [next_of_nonempty r empty]
    constructor
    · rintro ⟨e, r', failure⟩
      refine ⟨empty, ?_⟩
      intro p rest d k front derived
      refine Nat.lt_of_not_le fun fits => ?_
      obtain ⟨n, success, -⟩ := read_of_derives rest derived fits
      rw [front, success] at failure
      cases failure
    · rintro ⟨-, none⟩
      cases result : (read r.limit r.items).1 with
      | error e => exact ⟨e, _, rfl⟩
      | ok n =>
        obtain ⟨p, k, front, derived, fits⟩ := derives_of_read (Prod.ext result rfl)
        exact absurd fits (Nat.not_le_of_lt (none _ _ _ _ front derived))

theorem after_of_empty (calls : Nat) (r : Reader) (empty : r.items = []) : after calls r = r := by
  induction calls with
  | zero => rfl
  | succ calls ih => rw [after, next_of_empty r empty, ih]

/-- The calls on a reader cut its items into consecutive segments that are not empty: before each
call it holds the segments that no earlier call has consumed. -/
theorem exists_segments (r : Reader) :
    ∃ segments : List (List Item), segments.flatten = r.items ∧ (∀ s ∈ segments, s ≠ []) ∧
      ∀ calls, (after calls r).items = (segments.drop calls).flatten := by
  induction size : r.items.length using Nat.strongRecOn generalizing r with
  | _ size' ih =>
    by_cases empty : r.items = []
    · refine ⟨[], empty.symm, by simp, ?_⟩
      intro calls
      rw [after_of_empty calls r empty, empty]
      simp
    · obtain ⟨consumed, nonempty, split⟩ := next_consumes r empty
      have shorter : r.next.2.items.length < size' := by
        have positive := List.length_pos_iff.mpr nonempty
        rw [← size, split, List.length_append]
        omega
      obtain ⟨segments, joined, nonempties, held⟩ := ih _ shorter r.next.2 rfl
      refine ⟨consumed :: segments, ?_, ?_, ?_⟩
      · rw [List.flatten_cons, joined, ← split]
      · intro s member
        rcases List.mem_cons.mp member with rfl | member'
        · exact nonempty
        · exact nonempties s member'
      · intro calls
        cases calls with
        | zero => rw [after, List.drop_zero, List.flatten_cons, joined, ← split]
        | succ calls => rw [after, held, List.drop_succ_cons]

theorem length_le_flatten {segments : List (List Item)} (nonempties : ∀ s ∈ segments, s ≠ []) :
    segments.length ≤ segments.flatten.length := by
  induction segments with
  | nil => exact Nat.le_refl 0
  | cons s segments ih =>
    have positive := List.length_pos_iff.mpr (nonempties s List.mem_cons_self)
    have rest := ih fun s' member => nonempties s' (List.mem_cons_of_mem s member)
    rw [List.length_cons, List.flatten_cons, List.length_append]
    omega

theorem flatten_drop_eq_nil_iff {segments : List (List Item)} (calls : Nat)
    (nonempties : ∀ s ∈ segments, s ≠ []) :
    (segments.drop calls).flatten = [] ↔ segments.length ≤ calls := by
  rw [← List.drop_eq_nil_iff, List.flatten_eq_nil_iff]
  constructor
  · intro empties
    rcases left : segments.drop calls with _ | ⟨s, rest⟩
    · rfl
    · have member : s ∈ segments.drop calls := by rw [left]; exact List.mem_cons_self
      exact absurd (empties s member) (nonempties s (List.mem_of_mem_drop member))
  · intro none s member
    rw [none] at member
    cases member

/-- A call fails just if there are items and no tokens at their front are a datum within the limit.
Every error names the token at which reading first went wrong, or what was left unfinished. The
calls on a reader consume its items in consecutive segments, none empty; a call gives nothing
exactly if all of them have been consumed, and there are no more segments than items. -/
theorem next_blames_earliest (r : Reader) :
    ((∃ e r', r.next = (some (.error e), r')) ↔
      r.items ≠ [] ∧
        ∀ p rest d k, r.items = asItems p ++ rest → Derives p d k → r.limit < k) ∧
    (∀ e r', r.next = (some (.error e), r') →
      ∃ consumed, r.items = consumed ++ r'.items ∧ Blames r.limit consumed r'.items e) ∧
    ∃ segments : List (List Item), segments.flatten = r.items ∧ (∀ s ∈ segments, s ≠ []) ∧
      segments.length ≤ r.items.length ∧
      ∀ calls, (after calls r).items = (segments.drop calls).flatten ∧
        ((after calls r).next.1 = none ↔ segments.length ≤ calls) := by
  refine ⟨next_fails_iff r, ?_, ?_⟩
  · intro e r' failure
    have nonempty : r.items ≠ [] := by
      intro empty
      rw [next_of_empty r empty] at failure
      cases failure
    rw [next_of_nonempty r nonempty] at failure
    simp only [Prod.mk.injEq, Option.some.injEq] at failure
    obtain ⟨error, rfl⟩ := failure
    exact read_blames nonempty (Prod.ext error rfl)
  · obtain ⟨segments, joined, nonempties, held⟩ := exists_segments r
    refine ⟨segments, joined, nonempties, ?_, ?_⟩
    · rw [← joined]
      exact length_le_flatten nonempties
    · intro calls
      refine ⟨held calls, ?_⟩
      rw [next_eq_none_iff, held calls, flatten_drop_eq_nil_iff calls nonempties]

/-- `(a . ] b` goes wrong at the bracket, before which nothing is a datum, and `(a '` lacks what the
mark stands before. -/
theorem next_blames_earliest_after_dot :
    let token (kind : Token.Kind) : Token := ⟨kind, default, 1⟩
    let name (text : String) : Token := token (.atom (.symbol text))
    let front := [token (.opener .round), name "a", token .dot]
    let stray := token (.closer .square)
    let refused : Reader := ⟨1, asItems (front ++ [stray, name "b"]), false⟩
    let mark := token .quote
    let whole := [token (.opener .round), name "a", mark]
    let unfinished : Reader := ⟨2, asItems whole, false⟩
    refused.next.1 = some (.error (.unexpected stray .datum)) ∧
    Viable 1 front ∧ ¬ Viable 1 (front ++ [stray]) ∧
    (∀ p rest d k, refused.items = asItems p ++ rest → Derives p d k → 1 < k) ∧
    (after 5 refused).next.1 = none ∧
    unfinished.next.1 = some (.error (.nothingAfterQuote mark)) ∧ Viable 2 whole ∧
    InnermostUnfinished whole mark := by
  intro token name front stray refused mark whole unfinished
  have goesWrong : refused.next =
      (some (.error (.unexpected stray .datum)), ⟨1, asItems [name "b"], false⟩) := rfl
  have ends : unfinished.next = (some (.error (.nothingAfterQuote mark)), ⟨2, [], false⟩) := rfl
  obtain ⟨fails, blames, segments, -, -, few, calls⟩ := next_blames_earliest refused
  obtain ⟨_, consumed, p, rfl, viable, notViable⟩ := blames _ _ goesWrong
  rw [← asItems_append, List.append_assoc] at consumed
  obtain rfl : p = front := List.append_cancel_right (asItems_injective consumed).symm
  obtain ⟨-, blames', -⟩ := next_blames_earliest unfinished
  obtain ⟨_, consumed', p', rfl, -, viable', -, innermost⟩ := blames' _ _ ends
  rw [List.append_nil] at consumed'
  obtain rfl : p' = whole := (asItems_injective consumed').symm
  exact ⟨rfl, viable, notViable, (fails.mp ⟨_, _, goesWrong⟩).2, (calls 5).2.mpr few, rfl, viable',
    innermost⟩

end MiniScheme.Reader
