import MiniScheme.Proofs.Datum.Blame
import MiniScheme.Proofs.Token.Coverage

/-!
# What is read lies in the text

The spans of a datum are those of tokens, spans from an opening bracket to a closing one, and merges
of these. Items stand in the text one after another (`scan_accounted`), so a bracket is closed after
it was opened, and every node of every datum that is read covers a stretch of whole characters of
the text (`Reader.spanned_of_readAll`).
-/
namespace MiniScheme

/-- The span goes from one boundary between characters of the text to the same or a later one. -/
structure Span.Lies (source : String) (s : Span) : Prop where
  ordered : s.start ≤ s.stop
  inside : s.stop ≤ source.utf8ByteSize
  start : String.Pos.Raw.IsValid source ⟨s.start⟩
  stop : String.Pos.Raw.IsValid source ⟨s.stop⟩

/-- Every node covers a span as `P` says. -/
def Sexpr.Spanned {κ ρ : Type} (P : Span → Prop) (t : Sexpr κ ρ) : Prop :=
  ∀ node ∈ t.preorder, P node.span

section Spans

variable {source : String} {a b : Span}

/-- A span that ends where another begins or after it makes one span with it. -/
theorem Span.Lies.join (first : a.Lies source) (second : b.Lies source)
    (ordered : a.start ≤ b.stop) : Span.Lies source ⟨a.start, b.stop⟩ :=
  ⟨ordered, second.inside, first.start, second.stop⟩

theorem Span.Lies.merge (first : a.Lies source) (second : b.Lies source) :
    (a.merge b).Lies source := by
  have ordered : min a.start b.start ≤ max a.stop b.stop :=
    (Nat.min_le_left _ _).trans (first.ordered.trans (Nat.le_max_left _ _))
  refine ⟨ordered, Nat.max_le.mpr ⟨first.inside, second.inside⟩, ?_, ?_⟩
  · rcases Nat.le_total a.start b.start with le | le
    · simpa [Span.merge, le] using first.start
    · simpa [Span.merge, le] using second.start
  · rcases Nat.le_total a.stop b.stop with le | le
    · simpa [Span.merge, le] using second.stop
    · simpa [Span.merge, le] using first.stop

theorem Span.lies_default (source : String) : (default : Span).Lies source :=
  ⟨Nat.le_refl 0, Nat.zero_le _, String.Pos.Raw.isValid_zero, String.Pos.Raw.isValid_zero⟩

end Spans

namespace Sexpr

variable {κ ρ : Type} {P : Span → Prop} {s : Span} {t : Sexpr κ ρ}

@[simp] theorem spanned_pair {mark : κ} {car cdr : Sexpr κ ρ} :
    (pair s mark car cdr).Spanned P ↔ P s ∧ car.Spanned P ∧ cdr.Spanned P := by
  simp [Spanned, preorder, span, or_imp, forall_and]

@[simp] theorem spanned_atom {a : Atom} : (atom s a : Sexpr κ ρ).Spanned P ↔ P s := by
  simp [Spanned, preorder, span]

@[simp] theorem spanned_nil : (nil s : Sexpr κ ρ).Spanned P ↔ P s := by
  simp [Spanned, preorder, span]

@[simp] theorem spanned_leaf {r : ρ} : (leaf s r : Sexpr κ ρ).Spanned P ↔ P s := by
  simp [Spanned, preorder, span]

theorem Spanned.span (spanned : t.Spanned P) : P t.span := by
  cases t <;> simp_all [Sexpr.span]

theorem Spanned.withSpan (spanned : t.Spanned P) (covers : P s) : (t.withSpan s).Spanned P := by
  cases t <;> simp_all [Sexpr.withSpan]

end Sexpr

section Data

variable {source : String}

theorem Datum.spanned_ofList {elements : List Datum} {tail : Datum}
    (each : ∀ d ∈ elements, d.Spanned (Span.Lies source)) (last : tail.Spanned (Span.Lies source)) :
    (ofList elements tail).Spanned (Span.Lies source) := by
  induction elements with
  | nil => exact last
  | cons d ds ih =>
    rw [List.forall_mem_cons] at each
    have rest := ih each.2
    exact Sexpr.spanned_pair.mpr ⟨each.1.span.merge rest.span, each.1, rest⟩

theorem Datum.spanned_quoted {mark : Span} {d : Datum} (covers : mark.Lies source)
    (spanned : d.Spanned (Span.Lies source)) : (quoted mark d).Spanned (Span.Lies source) := by
  have whole := covers.merge spanned.span
  simp [quoted, whole, covers, spanned]

end Data

namespace Reader

variable {source : String} {items : List Item}

/-- The items stand in the text, each begins before any later one ends, and a closing bracket is
one byte. -/
structure Sited (source : String) (items : List Item) : Prop where
  lies : ∀ item ∈ items, item.span.Lies source
  ordered : items.Pairwise fun a b => a.span.start ≤ b.span.stop
  closers : ∀ (t : Token) (b : Bracket), .ok t ∈ items → t.kind = .closer b →
    t.span.start = t.span.stop - 1

theorem Sited.tail {item : Item} (sited : Sited source (item :: items)) : Sited source items :=
  ⟨fun other member => sited.lies other (List.mem_cons_of_mem _ member), sited.ordered.of_cons,
    fun t b member => sited.closers t b (List.mem_cons_of_mem _ member)⟩

theorem Sited.rest {consumed : List Item} (sited : Sited source (consumed ++ items)) :
    Sited source items := by
  induction consumed with
  | nil => exact sited
  | cons item consumed ih => exact ih sited.tail

/-- The token is one from which a datum may reach up to any of the items. -/
structure Opens (source : String) (items : List Item) (t : Token) : Prop where
  lies : t.span.Lies source
  before : ∀ item ∈ items, t.span.start ≤ item.span.stop

/-- What waits for a datum was begun before the items, and holds data that lie in the text. -/
def Pending.Sited (source : String) (items : List Item) : Pending → Prop
  | .list opener _ elements | .dotted opener _ elements =>
    Opens source items opener ∧ ∀ d ∈ elements, d.Spanned (Span.Lies source)
  | .quote mark => Opens source items mark

def State.Sited (source : String) (items : List Item) : State → Prop
  | .expecting stack => ∀ p ∈ stack, p.Sited source items
  | .closing opener _ elements tail stack =>
    Opens source items opener ∧ (∀ d ∈ elements, d.Spanned (Span.Lies source)) ∧
      tail.Spanned (Span.Lies source) ∧ ∀ p ∈ stack, p.Sited source items

def Progress.Sited (source : String) (items : List Item) : Progress → Prop
  | .more s => s.Sited source items
  | .done d => d.Spanned (Span.Lies source)

section Steps

variable {item : Item} {token : Token} {stack : List Pending}

theorem Opens.tail (opens : Opens source (item :: items) token) : Opens source items token :=
  ⟨opens.lies, fun other member => opens.before other (List.mem_cons_of_mem _ member)⟩

theorem Pending.Sited.tail {p : Pending} (sited : p.Sited source (item :: items)) :
    p.Sited source items := by
  cases p with
  | list | dotted => exact ⟨sited.1.tail, sited.2⟩
  | quote => exact Opens.tail sited

/-- The token at hand may begin a datum that goes on to any later item. -/
theorem Sited.opens (sited : Reader.Sited source (.ok token :: items)) :
    Opens source items token :=
  ⟨sited.lies (.ok token) List.mem_cons_self, (List.pairwise_cons.mp sited.ordered).1⟩

theorem spanned_finish {opener : Token} {elements : List Datum} {tail : Datum}
    (sited : Reader.Sited source (.ok token :: items))
    (opens : Opens source (.ok token :: items) opener)
    (each : ∀ d ∈ elements, d.Spanned (Span.Lies source)) (last : tail.Spanned (Span.Lies source)) :
    (finish opener elements tail token.span.stop).Spanned (Span.Lies source) := by
  have reversed : ∀ d ∈ elements.reverse, d.Spanned (Span.Lies source) := by simpa using each
  have listed := Datum.spanned_ofList reversed last
  have closed : token.span.Lies source := sited.lies (.ok token) List.mem_cons_self
  exact listed.withSpan (opens.lies.join closed (opens.before (.ok token) List.mem_cons_self))

theorem sited_feed {d : Datum} (spanned : d.Spanned (Span.Lies source))
    (waiting : ∀ p ∈ stack, p.Sited source items) : (feed d stack).Sited source items := by
  induction stack generalizing d with
  | nil => exact spanned
  | cons p stack ih =>
    rw [List.forall_mem_cons] at waiting
    obtain ⟨first, others⟩ := waiting
    cases p with
    | list opener b elements =>
      have more : Pending.Sited source items (.list opener b (d :: elements)) :=
        ⟨first.1, List.forall_mem_cons.mpr ⟨spanned, first.2⟩⟩
      exact List.forall_mem_cons.mpr ⟨more, others⟩
    | dotted opener b elements => exact ⟨first.1, first.2, spanned, others⟩
    | quote mark => exact ih (Datum.spanned_quoted first.lies spanned) others

theorem sited_enter {limit : Nat} {p : Pending} {progress : Progress}
    (entered : enter limit token p stack = .ok progress) (first : p.Sited source items)
    (waiting : ∀ p ∈ stack, p.Sited source items) : progress.Sited source items := by
  unfold enter at entered
  split at entered
  · cases entered
  · cases entered
    exact List.forall_mem_cons.mpr ⟨first, waiting⟩

theorem sited_close {b : Bracket} {progress : Progress}
    (closed : close token b stack = .ok progress) (kind : token.kind = .closer b)
    (sited : Reader.Sited source (.ok token :: items))
    (waiting : ∀ p ∈ stack, p.Sited source (.ok token :: items)) :
    progress.Sited source items := by
  cases stack with
  | nil => cases closed
  | cons p stack =>
    rw [List.forall_mem_cons] at waiting
    obtain ⟨first, others⟩ := waiting
    cases p with
    | dotted | quote => cases closed
    | list opener b' elements =>
      simp only [close] at closed
      split at closed
      · cases closed
        -- the empty list at the end covers the closing bracket
        have bracket := sited.closers token b List.mem_cons_self kind
        have last : (Sexpr.nil ⟨token.span.stop - 1, token.span.stop⟩ : Datum).Spanned
            (Span.Lies source) := by
          rw [Sexpr.spanned_nil, ← bracket]
          exact sited.lies (.ok token) List.mem_cons_self
        exact sited_feed (spanned_finish sited first.1 first.2 last) fun p member =>
          (others p member).tail
      · cases closed

theorem sited_dot {progress : Progress} (dotted : dot token stack = .ok progress)
    (waiting : ∀ p ∈ stack, p.Sited source items) : progress.Sited source items := by
  cases stack with
  | nil => cases dotted
  | cons p stack =>
    cases p with
    | dotted | quote => cases dotted
    | list opener b elements =>
      cases elements with
      | nil => cases dotted
      | cons d elements =>
        cases dotted
        rw [List.forall_mem_cons] at waiting
        exact List.forall_mem_cons.mpr waiting

/-- One token: what was begun before it was begun before the items after it. -/
theorem sited_step {limit : Nat} {s : State} {progress : Progress}
    (stepped : step limit s token = .ok progress)
    (sited : Reader.Sited source (.ok token :: items))
    (state : s.Sited source (.ok token :: items)) : progress.Sited source items := by
  have here : token.span.Lies source := sited.lies (.ok token) List.mem_cons_self
  cases s with
  | expecting stack =>
    have waiting : ∀ p ∈ stack, p.Sited source items := fun p member => (state p member).tail
    simp only [step] at stepped
    split at stepped
    · cases stepped
      exact sited_feed (Sexpr.spanned_atom.mpr here) waiting
    · exact sited_enter stepped ⟨sited.opens, by simp⟩ waiting
    · exact sited_enter stepped sited.opens waiting
    · next kind => exact sited_close stepped kind sited state
    · exact sited_dot stepped waiting
  | closing opener b elements tail stack =>
    obtain ⟨opens, each, last, others⟩ := state
    simp only [step] at stepped
    split at stepped
    · cases stepped
      exact sited_feed (spanned_finish sited opens each last) fun p member => (others p member).tail
    · cases stepped

end Steps

theorem spanned_of_readFrom {limit : Nat} {s : State} {d : Datum} (sited : Sited source items)
    (state : s.Sited source items) (success : (readFrom limit s items).1 = .ok d) :
    d.Spanned (Span.Lies source) := by
  induction items generalizing s with
  | nil => cases success
  | cons item items ih =>
    cases item with
    | error e => cases success
    | ok token =>
      unfold readFrom at success
      split at success
      · cases success
      · next d' stepped =>
        cases success
        exact sited_step stepped sited state
      · next s' stepped => exact ih sited.tail (sited_step stepped sited state) success

theorem spanned_of_readAll_sited {limit : Nat} {d : Datum} (sited : Sited source items)
    (success : .ok d ∈ readAll limit items) : d.Spanned (Span.Lies source) := by
  fun_induction readAll limit items with
  | case1 => cases success
  | case2 => cases List.mem_singleton.mp success
  | case3 first rest result d' ok ih =>
    obtain same | later := List.mem_cons.mp success
    · cases same
      have start : State.Sited source (first :: rest) (.expecting []) := List.forall_mem_nil _
      exact spanned_of_readFrom sited start ok
    · obtain ⟨consumed, split⟩ := read_consumes limit (first :: rest)
      rw [split] at sited
      exact ih sited.rest later

/-- In a run over a text a closing bracket covers one byte. -/
theorem closers_of_munched {before cs : List Char} (munched : Scan.Munched before cs items)
    (t : Token) (b : Bracket) (member : .ok t ∈ items) (kind : t.kind = .closer b) :
    t.span.start = t.span.stop - 1 := by
  induction munched with
  | finish => cases member
  | skipped _ _ _ _ ih => exact ih member
  | invalid _ _ _ _ ih =>
    obtain same | later := List.mem_cons.mp member
    · cases same
    · exact ih later
  | taken matched _ _ sameClass stands _ ih =>
    obtain rfl | later := List.mem_cons.mp member
    · have lexeme : Item.lexeme (.ok t) = .closer b := congrArg Token.Kind.lexeme kind
      rw [← sameClass, lexeme] at matched
      cases Pattern.mem_char.mp matched
      have narrow : b.closing.utf8Size = 1 := by cases b <;> rfl
      have span : t.span = _ := stands.span
      simp [span, narrow]
    · exact ih later

theorem sited_scan (source : String) : Sited source (scan source) := by
  have accounted := scan_accounted source
  have lies : ∀ item ∈ scan source, item.span.Lies source := by
    intro item member
    have placed := accounted.placed item member
    exact ⟨placed.nonempty.le, placed.stop.le_utf8ByteSize, placed.start, placed.stop⟩
  refine ⟨lies, ?_, closers_of_munched (scan_munched source).1⟩
  refine accounted.ordered.imp_of_mem fun first second before => ?_
  exact (lies _ first).ordered.trans (before.trans (lies _ second).ordered)

/-- Every node of what is read of a text lies in the text. -/
theorem spanned_of_readAll {limit : Nat} {d : Datum} (source : String)
    (success : .ok d ∈ readAll limit (scan source)) : d.Spanned (Span.Lies source) :=
  spanned_of_readAll_sited (sited_scan source) success

end Reader
end MiniScheme
