import MiniScheme.Proofs.Datum.Grammar

/-!
# Data as they are written

The grammar with spans, and with all data that a text writes: `Writes p d k parts` says that the
tokens `p` write the datum `d`, `k` deep, and that `parts` are the data written there at any depth:
`d` itself, the elements of a list, what follows a dot and what follows a quote mark. The tokens say
which they are (`writes_unique`), and every part is written by a stretch of the tokens
(`exists_stretch`). It covers them from where the first begins to where the last ends, and each of
its pairs covers what its two parts cover.
-/
namespace MiniScheme

/-- The span holds all of another. -/
def Span.Holds (outer inner : Span) : Prop := outer.start ≤ inner.start ∧ inner.stop ≤ outer.stop

namespace Span

variable {r s t : Span}

theorem Holds.trans (first : r.Holds s) (second : s.Holds t) : r.Holds t :=
  ⟨Nat.le_trans first.1 second.1, Nat.le_trans second.2 first.2⟩

theorem Holds.merge (first : r.Holds s) (second : r.Holds t) : r.Holds (s.merge t) :=
  ⟨Nat.le_min.mpr ⟨first.1, second.1⟩, Nat.max_le.mpr ⟨first.2, second.2⟩⟩

theorem merge_holds_left (s t : Span) : (s.merge t).Holds s :=
  ⟨Nat.min_le_left .., Nat.le_max_left ..⟩

theorem merge_holds_right (s t : Span) : (s.merge t).Holds t :=
  ⟨Nat.min_le_right .., Nat.le_max_right ..⟩

end Span

namespace Sexpr

variable {κ ρ : Type}

/-- The same tree with every span changed. -/
def mapSpan (f : Span → Span) : Sexpr κ ρ → Sexpr κ ρ
  | .atom s a => .atom (f s) a
  | .nil s => .nil (f s)
  | .pair s m a d => .pair (f s) m (a.mapSpan f) (d.mapSpan f)
  | .leaf s r => .leaf (f s) r

/-- Every pair covers what its two parts cover. -/
def Nested : Sexpr κ ρ → Prop
  | .pair s _ a d => (s.Holds a.span ∧ s.Holds d.span) ∧ a.Nested ∧ d.Nested
  | _ => True

end Sexpr

namespace Grammar

/-- The list with elements and a tail between two brackets: its first pair covers the brackets. -/
def bracketed (o c : Token) (ds : List Datum) (tail : Datum) : Datum :=
  (Datum.ofList ds tail).withSpan ⟨o.span.start, c.span.stop⟩

/-- The empty list at the end of a list. -/
def ending (c : Token) : Datum := .nil ⟨c.span.stop - 1, c.span.stop⟩

mutual

/-- The tokens of one datum, the datum with its spans, how deep it nests, and all data written
there. -/
inductive Writes : List Token → Datum → Nat → List Datum → Prop where
  | atom {t : Token} {a : Atom} (isAtom : t.kind = .atom a) :
      Writes [t] (.atom t.span a) 0 [.atom t.span a]
  | list {o c : Token} {b : Bracket} {p : List Token} {ds parts : List Datum} {k : Nat}
      (opens : o.kind = .opener b) (inner : WritesAll p ds k parts) (closes : c.kind = .closer b) :
      Writes (o :: (p ++ [c])) (bracketed o c ds (ending c)) (k + 1)
        (bracketed o c ds (ending c) :: parts)
  | dotted {o t c : Token} {b : Bracket} {p q : List Token} {ds parts parts' : List Datum}
      {d : Datum} {k j : Nat} (opens : o.kind = .opener b) (inner : WritesAll p ds k parts)
      (nonempty : ds ≠ []) (isDot : t.kind = .dot) (last : Writes q d j parts')
      (closes : c.kind = .closer b) :
      Writes (o :: (p ++ t :: (q ++ [c]))) (bracketed o c ds d) (max k j + 1)
        (bracketed o c ds d :: (parts ++ parts'))
  | quote {m : Token} {p : List Token} {d : Datum} {parts : List Datum} {k : Nat}
      (marks : m.kind = .quote) (inner : Writes p d k parts) :
      Writes (m :: p) (Datum.quoted m.span d) (k + 1) (Datum.quoted m.span d :: parts)

/-- The tokens of data one after another, the data, the depth of the deepest, and all data written
there. -/
inductive WritesAll : List Token → List Datum → Nat → List Datum → Prop where
  | nil : WritesAll [] [] 0 []
  | cons {p q : List Token} {d : Datum} {ds parts parts' : List Datum} {k j : Nat}
      (head : Writes p d k parts) (tail : WritesAll q ds j parts') :
      WritesAll (p ++ q) (d :: ds) (max k j) (parts ++ parts')

end

theorem erase_bracketed (o c : Token) (ds : List Datum) (tail : Datum) :
    (bracketed o c ds tail).erase = chain (ds.map Sexpr.erase) tail.erase := by
  rw [bracketed, erase_withSpan, erase_ofList]

mutual

/-- What the grammar derives can be given its spans. -/
theorem exists_writes {p : List Token} {d : Datum} {k : Nat} :
    Derives p d k → ∃ n parts, Writes p n k parts ∧ n.erase = d
  | .atom isAtom => ⟨_, _, .atom isAtom, rfl⟩
  | .list (c := c) opens inner closes => by
    obtain ⟨ns, parts, written, rfl⟩ := exists_writesAll inner
    exact ⟨_, _, .list opens written closes, erase_bracketed _ _ ns (ending c)⟩
  | .dotted opens inner nonempty isDot last closes => by
    obtain ⟨ns, parts, written, rfl⟩ := exists_writesAll inner
    obtain ⟨n, parts', writtenLast, rfl⟩ := exists_writes last
    have some : ns ≠ [] := by simpa using nonempty
    exact ⟨_, _, .dotted opens written some isDot writtenLast closes, erase_bracketed _ _ ns n⟩
  | .quote marks inner => by
    obtain ⟨n, parts, written, rfl⟩ := exists_writes inner
    exact ⟨_, _, .quote marks written, rfl⟩

theorem exists_writesAll {p : List Token} {ds : List Datum} {k : Nat} :
    DerivesAll p ds k → ∃ ns parts, WritesAll p ns k parts ∧ ns.map Sexpr.erase = ds
  | .nil => ⟨[], [], .nil, rfl⟩
  | .cons head tail => by
    obtain ⟨n, parts, written, rfl⟩ := exists_writes head
    obtain ⟨ns, parts', writtenTail, rfl⟩ := exists_writesAll tail
    exact ⟨n :: ns, parts ++ parts', .cons written writtenTail, rfl⟩

end

mutual

theorem derives_of_writes {p : List Token} {n : Datum} {k : Nat} {parts : List Datum} :
    Writes p n k parts → Derives p n.erase k
  | .atom isAtom => .atom isAtom
  | .list opens inner closes => by
    rw [erase_bracketed]
    exact .list opens (derivesAll_of_writesAll inner) closes
  | .dotted opens inner nonempty isDot last closes => by
    rw [erase_bracketed]
    exact .dotted opens (derivesAll_of_writesAll inner) (by simpa using nonempty) isDot
      (derives_of_writes last) closes
  | .quote marks inner => .quote marks (derives_of_writes inner)

theorem derivesAll_of_writesAll {p : List Token} {ns : List Datum} {k : Nat} {parts : List Datum} :
    WritesAll p ns k parts → DerivesAll p (ns.map Sexpr.erase) k
  | .nil => .nil
  | .cons head tail => .cons (derives_of_writes head) (derivesAll_of_writesAll tail)

end

/-- The token begins no datum. -/
def Ends (t : Token) : Prop := t.kind = .dot ∨ ∃ b, t.kind = .closer b

theorem exists_first_of_writes {p : List Token} {d : Datum} {k : Nat} {parts : List Datum}
    (writes : Writes p d k parts) : ∃ t rest, p = t :: rest ∧ ¬ Ends t := by
  cases writes with
  | @atom t a kind => exact ⟨t, _, rfl, by simp [Ends, kind]⟩
  | @list o c b p ds parts k kind => exact ⟨o, _, rfl, by simp [Ends, kind]⟩
  | @dotted o t c b p q ds parts parts' d k j kind => exact ⟨o, _, rfl, by simp [Ends, kind]⟩
  | @quote m p d parts k kind => exact ⟨m, _, rfl, by simp [Ends, kind]⟩

mutual

/-- A datum is written in one way, whatever follows it. -/
theorem writes_unique {p p' q q' : List Token} {d d' : Datum} {k k' : Nat}
    {parts parts' : List Datum} (writes : Writes p d k parts) (other : Writes p' d' k' parts')
    (same : p ++ q = p' ++ q') : p = p' ∧ d = d' ∧ k = k' ∧ parts = parts' := by
  match writes with
  | .atom isAtom =>
    cases other with
    | atom isAtom' =>
      obtain ⟨rfl, -⟩ := List.cons.inj same
      rw [isAtom] at isAtom'
      cases isAtom'
      exact ⟨rfl, rfl, rfl, rfl⟩
    | list kind | dotted kind | quote kind => 
      obtain ⟨rfl, -⟩ := List.cons.inj same
      rw [isAtom] at kind
      cases kind
  | .list opens inner closes =>
    cases other with
    | atom kind | quote kind =>
      obtain ⟨rfl, -⟩ := List.cons.inj same
      rw [opens] at kind
      cases kind
    | list opens' inner' closes' =>
      simp only [List.cons_append, List.append_assoc, List.cons.injEq] at same
      obtain ⟨rfl, same⟩ := same
      obtain ⟨rfl, rfl, rfl, rfl⟩ := writesAll_unique inner inner' (by simp [Ends, closes])
        (by simp [Ends, closes']) same
      obtain ⟨rfl, -⟩ := List.cons.inj (List.append_cancel_left same)
      exact ⟨rfl, rfl, rfl, rfl⟩
    | dotted opens' inner' nonempty' isDot' last' closes' =>
      simp only [List.cons_append, List.append_assoc, List.cons.injEq] at same
      obtain ⟨rfl, same⟩ := same
      obtain ⟨rfl, rfl, rfl, rfl⟩ := writesAll_unique inner inner' (by simp [Ends, closes])
        (by simp [Ends, isDot']) same
      obtain ⟨rfl, -⟩ := List.cons.inj (List.append_cancel_left same)
      rw [closes] at isDot'
      cases isDot'
  | .dotted opens inner nonempty isDot last closes =>
    cases other with
    | atom kind | quote kind =>
      obtain ⟨rfl, -⟩ := List.cons.inj same
      rw [opens] at kind
      cases kind
    | list opens' inner' closes' =>
      simp only [List.cons_append, List.append_assoc, List.cons.injEq] at same
      obtain ⟨rfl, same⟩ := same
      obtain ⟨rfl, rfl, rfl, rfl⟩ := writesAll_unique inner inner' (by simp [Ends, isDot])
        (by simp [Ends, closes']) same
      obtain ⟨rfl, -⟩ := List.cons.inj (List.append_cancel_left same)
      rw [isDot] at closes'
      cases closes'
    | dotted opens' inner' nonempty' isDot' last' closes' =>
      simp only [List.cons_append, List.append_assoc, List.cons.injEq] at same
      obtain ⟨rfl, same⟩ := same
      obtain ⟨rfl, rfl, rfl, rfl⟩ := writesAll_unique inner inner' (by simp [Ends, isDot])
        (by simp [Ends, isDot']) same
      obtain ⟨rfl, after⟩ := List.cons.inj (List.append_cancel_left same)
      obtain ⟨rfl, rfl, rfl, rfl⟩ := writes_unique last last' after
      obtain ⟨rfl, -⟩ := List.cons.inj (List.append_cancel_left after)
      exact ⟨rfl, rfl, rfl, rfl⟩
  | .quote marks inner =>
    cases other with
    | atom kind | list kind | dotted kind =>
      obtain ⟨rfl, -⟩ := List.cons.inj same
      rw [marks] at kind
      cases kind
    | quote marks' inner' =>
      obtain ⟨rfl, after⟩ := List.cons.inj same
      obtain ⟨rfl, rfl, rfl, rfl⟩ := writes_unique inner inner' after
      exact ⟨rfl, rfl, rfl, rfl⟩

theorem writesAll_unique {p p' q q' : List Token} {ds ds' : List Datum} {k k' : Nat}
    {parts parts' : List Datum} (writes : WritesAll p ds k parts)
    (other : WritesAll p' ds' k' parts') (ends : ∀ t ∈ q.head?, Ends t)
    (ends' : ∀ t ∈ q'.head?, Ends t) (same : p ++ q = p' ++ q') :
    p = p' ∧ ds = ds' ∧ k = k' ∧ parts = parts' := by
  match writes, other with
  | .nil, .nil => exact ⟨rfl, rfl, rfl, rfl⟩
  | .nil, .cons head tail =>
    obtain ⟨t, rest, rfl, begins⟩ := exists_first_of_writes head
    exact absurd (ends t (by simp [show q = _ from same])) begins
  | .cons head tail, .nil =>
    obtain ⟨t, rest, rfl, begins⟩ := exists_first_of_writes head
    exact absurd (ends' t (by simp [show q' = t :: (rest ++ _ ++ q) from same.symm])) begins
  | .cons head tail, .cons head' tail' =>
    rw [List.append_assoc, List.append_assoc] at same
    obtain ⟨rfl, rfl, rfl, rfl⟩ := writes_unique head head' same
    obtain ⟨rfl, rfl, rfl, rfl⟩ := writesAll_unique tail tail' ends ends'
      (List.append_cancel_left same)
    exact ⟨rfl, rfl, rfl, rfl⟩

end

/-- A stretch of the tokens writes the datum, no deeper than some depth. -/
def Stretch (p : List Token) (k : Nat) (e : Datum) : Prop :=
  ∃ before q after j parts, p = before ++ (q ++ after) ∧ Writes q e j parts ∧ j ≤ k

theorem Stretch.within {p : List Token} {k j : Nat} {e : Datum} (stretch : Stretch p k e)
    (front behind : List Token) (deeper : k ≤ j) : Stretch (front ++ (p ++ behind)) j e := by
  obtain ⟨before, q, after, i, parts, rfl, writes, shallow⟩ := stretch
  exact ⟨front ++ before, q, after ++ behind, i, parts, by simp, writes,
    Nat.le_trans shallow deeper⟩

mutual

/-- Every datum that is written is written by a stretch of the tokens. -/
theorem exists_stretch {p : List Token} {d : Datum} {k : Nat} {parts : List Datum}
    (writes : Writes p d k parts) : ∀ e ∈ parts, Stretch p k e := by
  have whole : Stretch p k d := ⟨[], p, [], k, parts, by simp, writes, Nat.le_refl k⟩
  match writes with
  | .atom isAtom => simpa using whole
  | .list (o := o) (c := c) opens inner closes =>
    refine List.forall_mem_cons.mpr ⟨whole, fun e member => ?_⟩
    exact (exists_stretchAll inner e member).within [o] [c] (Nat.le_succ _)
  | .dotted (o := o) (t := t) (c := c) (p := p) (q := q) (k := k) (j := j) opens inner nonempty
      isDot last closes =>
    refine List.forall_mem_cons.mpr ⟨whole, fun e member => ?_⟩
    obtain element | tail := List.mem_append.mp member
    · exact (exists_stretchAll inner e element).within [o] (t :: (q ++ [c]))
        (Nat.le_succ_of_le (Nat.le_max_left k j))
    · have stretch := (exists_stretch last e tail).within (o :: (p ++ [t])) [c]
        (Nat.le_succ_of_le (Nat.le_max_right k j))
      simpa using stretch
  | .quote (m := m) (k := k) marks inner =>
    refine List.forall_mem_cons.mpr ⟨whole, fun e member => ?_⟩
    have stretch := (exists_stretch inner e member).within [m] [] (Nat.le_succ k)
    simpa using stretch

theorem exists_stretchAll {p : List Token} {ds : List Datum} {k : Nat} {parts : List Datum} :
    WritesAll p ds k parts → ∀ e ∈ parts, Stretch p k e
  | .nil => List.forall_mem_nil _
  | .cons (p := p) (q := q) (k := k) (j := j) head tail => by
    intro e member
    obtain first | later := List.mem_append.mp member
    · exact (exists_stretch head e first).within [] q (Nat.le_max_left k j)
    · have stretch := (exists_stretchAll tail e later).within p [] (Nat.le_max_right k j)
      simpa using stretch

end

/-! ## Spans -/

/-- Tokens in the order of the text, each of some bytes. -/
structure InOrder (p : List Token) : Prop where
  nonempty : ∀ t ∈ p, t.span.start < t.span.stop
  ordered : p.Pairwise fun s t => s.span.stop ≤ t.span.start

/-- The span goes from where the first of the tokens begins to where the last ends. -/
structure Covers (p : List Token) (s : Span) : Prop where
  begins : ∃ first rest, p = first :: rest ∧ first.span.start = s.start
  ends : ∃ front last, p = front ++ [last] ∧ last.span.stop = s.stop

section Spans

variable {r s : Span} {o c m : Token} {p q : List Token} {d tail : Datum} {ds : List Datum}

theorem InOrder.sublist (inOrder : InOrder p) (sub : q.Sublist p) : InOrder q :=
  ⟨fun t member => inOrder.nonempty t (sub.subset member), inOrder.ordered.sublist sub⟩

theorem Covers.holds (covers : Covers p s) (all : ∀ t ∈ p, r.Holds t.span) : r.Holds s := by
  obtain ⟨⟨first, rest, begins, start⟩, ⟨front, last, ends, stop⟩⟩ := covers
  have lower := (all first (by simp [begins])).1
  have upper := (all last (by simp [ends])).2
  rw [start] at lower
  rw [stop] at upper
  exact ⟨lower, upper⟩

/-- A quote mark and what it stands before. -/
theorem Covers.mark (covers : Covers p s) (inOrder : InOrder (m :: p)) :
    Covers (m :: p) (m.span.merge s) := by
  obtain ⟨⟨first, rest, begins, start⟩, ⟨front, last, ends, stop⟩⟩ := covers
  have mark := inOrder.nonempty m List.mem_cons_self
  have before := (List.pairwise_cons.mp inOrder.ordered).1
  have lower := before first (by simp [begins])
  have upper := before last (by simp [ends])
  have wide := inOrder.nonempty last (by simp [ends])
  refine ⟨⟨m, p, rfl, ?_⟩, ⟨m :: front, last, by simp [ends], ?_⟩⟩
  · simp only [Span.merge]
    omega
  · simp only [Span.merge]
    omega

/-- A datum covers its tokens. -/
theorem covers_of_writes {p : List Token} {d : Datum} {k : Nat} {parts : List Datum} :
    Writes p d k parts → InOrder p → Covers p d.span
  | .atom (t := t) isAtom => fun _ => ⟨⟨t, [], rfl, rfl⟩, ⟨[], t, rfl, rfl⟩⟩
  | .list (o := o) (c := c) (p := p) opens inner closes => fun _ => by
    rw [bracketed, Sexpr.span_withSpan]
    exact ⟨⟨o, p ++ [c], rfl, rfl⟩, ⟨o :: p, c, rfl, rfl⟩⟩
  | .dotted (o := o) (t := t) (c := c) (p := p) (q := q) opens inner nonempty isDot last closes =>
    fun _ => by
      rw [bracketed, Sexpr.span_withSpan]
      exact ⟨⟨o, _, rfl, rfl⟩, ⟨o :: (p ++ t :: q), c, by simp, rfl⟩⟩
  | .quote (m := m) marks inner => fun inOrder =>
    (covers_of_writes inner (inOrder.sublist (List.sublist_cons_self ..))).mark inOrder

/-- Brackets cover all tokens between them. -/
theorem InOrder.between (inOrder : InOrder (o :: (p ++ [c]))) :
    ∀ t ∈ p, Span.Holds ⟨o.span.start, c.span.stop⟩ t.span := by
  intro t member
  obtain ⟨before, rest⟩ := List.pairwise_cons.mp inOrder.ordered
  have lower := before t (by simp [member])
  have upper := (List.pairwise_append.mp rest).2.2 t member c List.mem_cons_self
  have opening := inOrder.nonempty o List.mem_cons_self
  have closing := inOrder.nonempty c (by simp)
  exact ⟨by simp only; omega, by simp only; omega⟩

theorem holds_ofList (elements : ∀ e ∈ ds, r.Holds e.span) (last : r.Holds tail.span) :
    r.Holds (Datum.ofList ds tail).span := by
  induction ds with
  | nil => exact last
  | cons d ds ih =>
    rw [List.forall_mem_cons] at elements
    exact elements.1.merge (ih elements.2)

theorem nested_ofList (elements : ∀ e ∈ ds, e.Nested) (last : tail.Nested) :
    (Datum.ofList ds tail).Nested := by
  induction ds with
  | nil => exact last
  | cons d ds ih =>
    rw [List.forall_mem_cons] at elements
    exact ⟨⟨Span.merge_holds_left .., Span.merge_holds_right ..⟩, elements.1, ih elements.2⟩

theorem nested_bracketed (nonempty : ds ≠ []) (elements : ∀ e ∈ ds, e.Nested)
    (last : tail.Nested) (between : ∀ e ∈ ds, Span.Holds ⟨o.span.start, c.span.stop⟩ e.span)
    (betweenLast : Span.Holds ⟨o.span.start, c.span.stop⟩ tail.span) :
    (bracketed o c ds tail).Nested := by
  obtain ⟨d, ds, rfl⟩ := List.exists_cons_of_ne_nil nonempty
  rw [List.forall_mem_cons] at elements between
  exact ⟨⟨between.1, holds_ofList between.2 betweenLast⟩, elements.1,
    nested_ofList elements.2 last⟩

theorem nested_quoted (nested : d.Nested) : (Datum.quoted s d).Nested := by
  have whole : (s.merge d.span).Holds (s.merge d.span) := ⟨Nat.le_refl _, Nat.le_refl _⟩
  exact ⟨⟨Span.merge_holds_left .., whole⟩, trivial, ⟨Span.merge_holds_right .., whole⟩, nested,
    trivial⟩

mutual

/-- Every pair that is written, those of lists and of quotations among them, covers its parts. -/
theorem nested_of_writes {p : List Token} {d : Datum} {k : Nat} {parts : List Datum} :
    Writes p d k parts → InOrder p → d.Nested
  | .atom _ => fun _ => trivial
  | @Writes.list o c _ p ds _ _ opens inner closes => fun inOrder => by
    by_cases empty : ds = []
    · subst empty
      trivial
    have sub : p.Sublist (o :: (p ++ [c])) :=
      (List.sublist_append_left ..).trans (List.sublist_cons_self ..)
    obtain ⟨nested, covered⟩ := nested_of_writesAll inner (inOrder.sublist sub)
    refine nested_bracketed empty nested trivial (covered _ inOrder.between) ?_
    have before := (List.pairwise_cons.mp inOrder.ordered).1 c (by simp)
    have opening := inOrder.nonempty o List.mem_cons_self
    have closing := inOrder.nonempty c (by simp)
    have lower : o.span.start ≤ c.span.stop - 1 := by omega
    exact ⟨lower, Nat.le_refl _⟩
  | .dotted (o := o) (t := t) (c := c) (p := p) (q := q) opens inner nonempty isDot last closes =>
    fun inOrder => by
      have whole : o :: (p ++ t :: (q ++ [c])) = o :: ((p ++ t :: q) ++ [c]) := by simp
      rw [whole] at inOrder
      have between := inOrder.between
      have inside : InOrder (p ++ t :: q) := inOrder.sublist
        ((List.sublist_append_left ..).trans (List.sublist_cons_self ..))
      have tokensLast : InOrder q := inside.sublist
        ((List.sublist_cons_self ..).trans (List.sublist_append_right ..))
      obtain ⟨nested, covered⟩ := nested_of_writesAll inner
        (inside.sublist (List.sublist_append_left ..))
      refine nested_bracketed nonempty nested (nested_of_writes last tokensLast)
        (covered _ fun t member => between t (by simp [member])) ?_
      exact (covers_of_writes last tokensLast).holds fun t member => between t (by simp [member])
  | .quote marks inner => fun inOrder =>
    nested_quoted (nested_of_writes inner (inOrder.sublist (List.sublist_cons_self ..)))

theorem nested_of_writesAll {p : List Token} {ds : List Datum} {k : Nat} {parts : List Datum} :
    WritesAll p ds k parts → InOrder p → (∀ e ∈ ds, e.Nested) ∧
      ∀ r : Span, (∀ t ∈ p, r.Holds t.span) → ∀ e ∈ ds, r.Holds e.span
  | .nil => fun _ => ⟨List.forall_mem_nil _, fun _ _ => List.forall_mem_nil _⟩
  | .cons head tail => fun inOrder => by
    have here := inOrder.sublist (List.sublist_append_left ..)
    obtain ⟨nested, covered⟩ := nested_of_writesAll tail
      (inOrder.sublist (List.sublist_append_right ..))
    refine ⟨List.forall_mem_cons.mpr ⟨nested_of_writes head here, nested⟩, fun r all => ?_⟩
    rw [List.forall_mem_append] at all
    exact List.forall_mem_cons.mpr ⟨(covers_of_writes head here).holds all.1, covered r all.2⟩

end

end Spans

end Grammar

/-- What a node covers holds what every node below it covers. -/
theorem Sexpr.Nested.holds {κ ρ : Type} {t : Sexpr κ ρ} (nested : t.Nested) :
    ∀ node ∈ t.preorder, t.span.Holds node.span := by
  induction t with
  | pair s mark a d iha ihd =>
    obtain ⟨⟨left, right⟩, nestedLeft, nestedRight⟩ := nested
    have refl : s.Holds s := ⟨Nat.le_refl _, Nat.le_refl _⟩
    refine List.forall_mem_cons.mpr ⟨refl, fun node member => ?_⟩
    obtain inLeft | inRight := List.mem_append.mp member
    · exact left.trans (iha nestedLeft node inLeft)
    · exact right.trans (ihd nestedRight node inRight)
  | _ => exact List.forall_mem_singleton.mpr ⟨Nat.le_refl _, Nat.le_refl _⟩

end MiniScheme
