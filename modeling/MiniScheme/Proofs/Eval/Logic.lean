import MiniScheme.Eval

/-!
# A logic of evaluation

What holds of every evaluation is shown here once for all special forms, calls and primitives. A
logic says in which worlds evaluation goes on, which frames and values a world knows, and when a
computation obeys it. Worlds only get richer: what is known in one is known in every later one. The
logic must allow sequencing, stopping, and the few operations by which evaluation touches a store:
looking a name up, binding it, entering a new frame, making or fetching a closure, and making pairs.
Then every evaluation and every call obeys it (`EvalLogic.obeys_eval`, `EvalLogic.obeys_apply`).

A logic has no say in which errors are met: to stop is always allowed.
-/
namespace MiniScheme

namespace Primitive

/-- An outcome that is an atom but no symbol, if it is a value. -/
def Plain (x : Except EvalError Value) : Prop :=
  ∀ v, x = .ok v → ∃ span a, v = .atom span a ∧ ∀ name, a ≠ .symbol name

theorem plain_error (e : EvalError) : Plain (.error e) := fun _ result => nomatch result

theorem plain_number (span : Span) (x : Float) : Plain (.ok (.number span x)) := by
  rintro v ⟨⟩
  exact ⟨span, .number x, rfl, nofun⟩

theorem plain_boolean (span : Span) (b : Bool) : Plain (.ok (.boolean span b)) := by
  rintro v ⟨⟩
  exact ⟨span, .boolean b, rfl, nofun⟩

theorem plain_map {α : Type} {x : Except EvalError α} {g : α → Value}
    (plain : ∀ a, Plain (.ok (g a))) : Plain (x.map g) := by
  cases x with
  | error e => exact plain_error e
  | ok a => exact plain a

theorem plain_difference (args : List Value) (span : Span) : Plain (difference args span) := by
  unfold difference
  split
  · exact plain_error _
  · exact plain_error _
  · exact plain_number _ _
  · exact plain_number _ _

theorem plain_divideBy (x : Float) (divisors : List Float) (span : Span) :
    Plain (divideBy x divisors span) := by
  unfold divideBy
  split
  · exact plain_error _
  · exact plain_number _ _

theorem plain_quotient (args : List Value) (span : Span) : Plain (quotient args span) := by
  unfold quotient
  split
  · exact plain_error _
  · exact plain_error _
  · exact plain_divideBy _ _ _
  · exact plain_divideBy _ _ _

theorem plain_test (holds : Value → Bool) (args : List Value) (span : Span) :
    Plain (test holds args span) := by
  unfold test
  split
  · exact plain_boolean _ _
  · exact plain_error _

theorem plain_relate (holds : Value → Value → Bool) (args : List Value) (span : Span) :
    Plain (relate holds args span) := by
  unfold relate
  split
  · exact plain_boolean _ _
  · exact plain_error _

end Primitive

/-- The name that is expected of a value is that of the symbol it is. -/
theorem Form.eq_symbol_of_expectSymbol {v : Value} {name : String}
    (expected : expectSymbol v = .ok name) : ∃ span, v = .atom span (.symbol name) := by
  unfold expectSymbol at expected
  split at expected
  · next symbol =>
    cases expected
    unfold Sexpr.symbol? at symbol
    split at symbol
    · cases symbol
      exact ⟨_, rfl⟩
    · cases symbol
  · cases expected

structure EvalLogic where
  World : Type
  /-- The first world may have become the second. -/
  Later : World → World → Prop
  /-- The frames known. -/
  frame : World → FrameId → Prop
  /-- The expressions and values known. -/
  value : World → Value → Prop
  /-- The computation, run in the world and for the frame, gives only what `P` says of the world
  that it leaves. -/
  Obeys (w : World) (f : FrameId) {α : Type} (m : Machine α) (P : World → α → Prop) : Prop
  frame_later {w w' : World} {f : FrameId} (later : Later w w') (known : frame w f) : frame w' f
  value_later {w w' : World} {v : Value} (later : Later w w') (known : value w v) : value w' v
  atom (w : World) (span : Span) {a : Atom} (noSymbol : ∀ name, a ≠ .symbol name) :
    value w (.atom span a)
  unspecified (w : World) (span : Span) : value w (.unspecified span)
  parts {w : World} {span : Span} {mark : CellId} {car cdr : Value}
    (known : value w (.pair span mark car cdr)) : value w car ∧ value w cdr
  pure {w : World} {f : FrameId} {α : Type} {P : World → α → Prop} {a : α} (result : P w a) :
    Obeys w f (pure a) P
  stop {w : World} {f : FrameId} {α : Type} {P : World → α → Prop} (why : Stop) :
    Obeys w f (throw why : Machine α) P
  bind {w : World} {f : FrameId} {α β : Type} {m : Machine α} {next : α → Machine β}
    {P : World → α → Prop} {Q : World → β → Prop} (first : Obeys w f m P)
    (rest : ∀ w' a, Later w w' → P w' a → Obeys w' f (next a) Q) : Obeys w f (m >>= next) Q
  lookup {w : World} {f : FrameId} (name : String) (span : Span) (inFrame : frame w f) :
    Obeys w f (Machine.lookup f name span) value
  assign {w : World} {f : FrameId} {v : Value} (name : String) (span : Span)
    (inFrame : frame w f) (known : value w v) :
    Obeys w f (Machine.assign f name v span) fun _ _ => True
  /-- A name that is bound anew is a symbol that is known. -/
  define {w : World} {f : FrameId} {v : Value} {origin : Span} {name : String}
    (inFrame : frame w f) (symbol : value w (.atom origin (.symbol name))) (known : value w v) :
    Obeys w f (Machine.define f name v) fun _ _ => True
  /-- What is evaluated in a new frame is run for that frame. -/
  enter {w : World} {f parent : FrameId} {α : Type} {P : World → α → Prop} {formals : List String}
    {variadic : Bool} {arguments : List Value} {span : Span} {body : FrameId → Machine α}
    (inParent : frame w parent) (known : ∀ v ∈ arguments, value w v)
    (inside : ∀ w' inner, Later w w' → frame w' inner → Obeys w' inner (body inner) P) :
    Obeys w f (Machine.make (fun s => s.bindFormals parent formals variadic arguments span) >>=
      body) P
  makeClosure {w : World} {f : FrameId} {c : Closure} (name : Option String) (span : Span)
    (inFrame : frame w c.frame) (known : ∀ e ∈ c.body, value w e) :
    Obeys w f (Form.makeClosure c name span) value
  /-- What reads a store to see one closure and nothing else. -/
  fetch {w : World} {f : FrameId} {α : Type} {P : World → α → Prop} {origin : Span}
    {id : ClosureId} {name : Option String} {next : Store → Machine α}
    (held : value w (.procedure origin (.closure id name)))
    (only : ∀ s t : Store, s.closures[id]? = t.closures[id]? → next s = next t)
    (rest : ∀ s : Store, (∀ c, s.closures[id]? = some c →
      frame w c.frame ∧ ∀ e ∈ c.body, value w e) → Obeys w f (next s) P) :
    Obeys w f (get >>= next) P
  cons {w : World} {f : FrameId} {car cdr : Value} (span : Span) (first : value w car)
    (second : value w cdr) : Obeys w f (Machine.make fun s => s.addPair span car cdr) value
  list {w : World} {f : FrameId} {vs : List Value} (span : Span) (known : ∀ v ∈ vs, value w v) :
    Obeys w f (Primitive.call .list vs span) value

namespace EvalLogic

variable (l : EvalLogic) {w : l.World} {f : FrameId}

theorem obeys_fail {α : Type} {P : l.World → α → Prop} (e : EvalError) :
    l.Obeys w f (Machine.fail e : Machine α) P :=
  l.stop (.failed e)

theorem obeys_ofExcept {α : Type} {P : l.World → α → Prop} {x : Except EvalError α}
    (result : ∀ a, x = .ok a → P w a) : l.Obeys w f (Machine.ofExcept x) P := by
  cases x with
  | ok a => exact l.pure (result a rfl)
  | error e => exact l.obeys_fail e

/-- A check that fails first or else lets the rest go on. -/
theorem obeys_unless {α : Type} {P : l.World → α → Prop} {refused : Bool} {e : EvalError}
    {rest : Unit → Machine α} (obeys : l.Obeys w f (rest ()) P) :
    l.Obeys w f (if refused then Machine.fail e >>= rest else rest ()) P := by
  cases refused with
  | true => exact l.stop (.failed e)
  | false => exact obeys

/-- A part that is looked at before anything is evaluated, and what comes after it. -/
theorem obeys_check {α β : Type} {P : l.World → β → Prop} {x : Except EvalError α}
    {next : α → Machine β} (rest : ∀ w' a, l.Later w w' → x = .ok a → l.Obeys w' f (next a) P) :
    l.Obeys w f (Machine.ofExcept x >>= next) P :=
  l.bind (P := fun _ a => x = .ok a) (l.obeys_ofExcept fun _ same => same) rest

/-- To call is to enter a new frame, if the arguments are as many as the formals accept. -/
theorem obeys_extend {parent : FrameId} {α : Type} {P : l.World → α → Prop} {formals : List String}
    {variadic : Bool} {arguments : List Value} {span : Span} {body : FrameId → Machine α}
    (inParent : l.frame w parent) (known : ∀ v ∈ arguments, l.value w v)
    (inside : ∀ w' inner, l.Later w w' → l.frame w' inner → l.Obeys w' inner (body inner) P) :
    l.Obeys w f (Machine.extend parent formals variadic arguments span >>= body) P := by
  unfold Machine.extend
  dsimp only
  split
  · exact l.enter inParent known inside
  · exact l.stop _

theorem forall_value_later {w' : l.World} {vs : List Value} (later : l.Later w w')
    (known : ∀ v ∈ vs, l.value w v) : ∀ v ∈ vs, l.value w' v :=
  fun v member => l.value_later later (known v member)

/-- The elements of a list are known with it. -/
theorem value_of_toList? {v : Value} {es : List Value} (known : l.value w v)
    (elements : v.toList? = some es) : ∀ e ∈ es, l.value w e := by
  induction v generalizing es with
  | atom => cases elements
  | leaf => cases elements
  | nil =>
    cases elements
    simp
  | pair _ _ car cdr _ ih =>
    obtain ⟨rest, restElements, rfl⟩ := Option.map_eq_some_iff.mp elements
    obtain ⟨first, second⟩ := l.parts known
    exact List.forall_mem_cons.mpr ⟨first, ih second restElements⟩

section Primitives

variable {args : List Value} {v : Value}

/-- A part of a pair is known with the pair. -/
theorem value_part {p : Primitive} {select : Value → Value → Value} {span : Span}
    (selects : ∀ a b, select a b = a ∨ select a b = b) (known : ∀ v ∈ args, l.value w v)
    (result : p.part select args span = .ok v) : l.value w v := by
  unfold Primitive.part at result
  split at result
  · next pairSpan mark first second =>
    cases result
    obtain ⟨here, there⟩ :=
      l.parts (known (.pair pairSpan mark first second) (List.mem_singleton_self _))
    obtain same | same := selects first second
    · rwa [same]
    · rwa [same]
  · cases result
  · cases result

/-- What the other primitives compute is a number or a boolean. -/
theorem value_plain {x : Except EvalError Value} (plain : Primitive.Plain x)
    (result : x = .ok v) : l.value w v := by
  obtain ⟨s, a, rfl, noSymbol⟩ := plain v result
  exact l.atom w s noSymbol

theorem obeys_call (p : Primitive) (span : Span) (known : ∀ v ∈ args, l.value w v) :
    l.Obeys w f (p.call args span) l.value := by
  cases p with
  | add | multiply =>
    exact l.obeys_ofExcept fun v =>
      l.value_plain (Primitive.plain_map fun _ => Primitive.plain_number _ _)
  | equals | less | lessOrEqual | greater | greaterOrEqual =>
    exact l.obeys_ofExcept fun v =>
      l.value_plain (Primitive.plain_map fun _ => Primitive.plain_boolean _ _)
  | subtract =>
    exact l.obeys_ofExcept fun v => l.value_plain (Primitive.plain_difference args span)
  | divide => exact l.obeys_ofExcept fun v => l.value_plain (Primitive.plain_quotient args span)
  | car => exact l.obeys_ofExcept fun v => l.value_part (fun _ _ => .inl rfl) known
  | cdr => exact l.obeys_ofExcept fun v => l.value_part (fun _ _ => .inr rfl) known
  | cons =>
    simp only [Primitive.call]
    split
    · simp only [List.forall_mem_cons] at known
      exact l.cons span known.1 known.2.1
    · exact l.obeys_fail _
  | list => exact l.list span known
  | isNull | isPair | isNumber | isBoolean | isSymbol | isString | isCharacter | isProcedure
  | not =>
    exact l.obeys_ofExcept fun v => l.value_plain (Primitive.plain_test _ args span)
  | isSame | isEqual =>
    exact l.obeys_ofExcept fun v => l.value_plain (Primitive.plain_relate _ args span)

end Primitives

section Forms

/-! Each form over an evaluator for its parts that obeys. -/

variable {ev : Evaluator}
  (each : ∀ w f e, l.frame w f → l.value w e → l.Obeys w f (ev f e) l.value)
include each

theorem obeys_evalSequence (span : Span) {es : List Value} (inFrame : l.frame w f)
    (known : ∀ e ∈ es, l.value w e) :
    l.Obeys w f (Form.evalSequence ev f span es) l.value := by
  induction es generalizing w with
  | nil => exact l.pure (l.unspecified w span)
  | cons e es ih =>
    rw [List.forall_mem_cons] at known
    cases es with
    | nil => exact each w f e inFrame known.1
    | cons e' es =>
      refine l.bind (each w f e inFrame known.1) fun w' _ later _ => ?_
      exact ih (l.frame_later later inFrame) (l.forall_value_later later known.2)

theorem obeys_evalEach {es : List Value} (inFrame : l.frame w f)
    (known : ∀ e ∈ es, l.value w e) :
    l.Obeys w f (Form.evalEach ev f es) fun w' vs => ∀ v ∈ vs, l.value w' v := by
  induction es generalizing w with
  | nil => exact l.pure fun _ none => nomatch none
  | cons e es ih =>
    rw [List.forall_mem_cons] at known
    refine l.bind (each w f e inFrame known.1) fun w₁ v later₁ first => ?_
    have rest := ih (l.frame_later later₁ inFrame) (l.forall_value_later later₁ known.2)
    refine l.bind rest fun w₂ vs later₂ others => ?_
    exact l.pure (List.forall_mem_cons.mpr ⟨l.value_later later₂ first, others⟩)

theorem obeys_evalAssign (form : Value) {operands : List Value} (inFrame : l.frame w f)
    (known : ∀ e ∈ operands, l.value w e) :
    l.Obeys w f (Form.evalAssign ev f form operands) l.value := by
  unfold Form.evalAssign
  split
  · next target expression =>
    simp only [List.forall_mem_cons] at known
    refine l.obeys_check fun w₁ name later₁ _ => ?_
    have inFrame₁ := l.frame_later later₁ inFrame
    refine l.bind (each w₁ f expression inFrame₁ (l.value_later later₁ known.2.1))
      fun w₂ v later₂ result => ?_
    refine l.bind (l.assign name form.span (l.frame_later later₂ inFrame₁) result)
      fun w₃ _ _ _ => ?_
    exact l.pure (l.unspecified w₃ _)
  · exact l.obeys_fail _

omit each in
/-- Both ways to define end by binding the value in the frame. -/
theorem obeys_defined {m : Machine Value} {origin : Span} {name : String} (span : Span)
    (inFrame : l.frame w f) (symbol : l.value w (.atom origin (.symbol name)))
    (made : l.Obeys w f m l.value) :
    l.Obeys w f (do
      let v ← m
      Machine.define f name v
      Pure.pure (Value.unspecified span)) l.value := by
  refine l.bind made fun w₁ v later₁ result => ?_
  refine l.bind (l.define (l.frame_later later₁ inFrame) (l.value_later later₁ symbol) result)
    fun w₂ _ _ _ => ?_
  exact l.pure (l.unspecified w₂ span)

theorem obeys_evalDefine (form : Value) {operands : List Value} (inFrame : l.frame w f)
    (known : ∀ e ∈ operands, l.value w e) :
    l.Obeys w f (Form.evalDefine ev f form operands) l.value := by
  unfold Form.evalDefine
  split
  · exact l.obeys_fail _
  · next name rest =>
    split
    · next expression =>
      simp only [List.forall_mem_cons] at known
      exact l.obeys_defined form.span inFrame known.1 (each w f expression inFrame known.2.1)
    · exact l.obeys_fail _
  · next target params body =>
    rw [List.forall_mem_cons] at known
    obtain ⟨targetKnown, -⟩ := l.parts known.1
    apply l.obeys_unless
    refine l.obeys_check fun w₁ name later₁ symbol => ?_
    refine l.obeys_check fun w₂ ⟨names, variadic⟩ later₂ _ => ?_
    obtain ⟨origin, rfl⟩ := Form.eq_symbol_of_expectSymbol symbol
    have inFrame₂ := l.frame_later later₂ (l.frame_later later₁ inFrame)
    have known₂ := l.forall_value_later later₂ (l.forall_value_later later₁ known.2)
    have targetKnown₂ := l.value_later later₂ (l.value_later later₁ targetKnown)
    exact l.obeys_defined form.span inFrame₂ targetKnown₂
      (l.makeClosure (c := ⟨names, variadic, body, f⟩) (some name) form.span inFrame₂ known₂)
  · exact l.obeys_fail _

theorem obeys_evalConditional (form : Value) {operands : List Value} (inFrame : l.frame w f)
    (known : ∀ e ∈ operands, l.value w e) :
    l.Obeys w f (Form.evalConditional ev f form operands) l.value := by
  unfold Form.evalConditional
  split
  · next condition consequent =>
    simp only [List.forall_mem_cons] at known
    refine l.bind (each w f condition inFrame known.1) fun w' v later _ => ?_
    have inFrame' := l.frame_later later inFrame
    split
    · exact each w' f consequent inFrame' (l.value_later later known.2.1)
    · exact l.pure (l.unspecified w' _)
  · next condition consequent alternate =>
    simp only [List.forall_mem_cons] at known
    refine l.bind (each w f condition inFrame known.1) fun w' v later _ => ?_
    have inFrame' := l.frame_later later inFrame
    split
    · exact each w' f consequent inFrame' (l.value_later later known.2.1)
    · exact each w' f alternate inFrame' (l.value_later later known.2.2.1)
  · exact l.obeys_fail _

theorem obeys_evalCond (form : Value) {clauses : List Value} (inFrame : l.frame w f)
    (known : ∀ e ∈ clauses, l.value w e) :
    l.Obeys w f (Form.evalCond ev f form clauses) l.value := by
  induction clauses generalizing w with
  | nil => exact l.pure (l.unspecified w _)
  | cons clause clauses ih =>
    rw [List.forall_mem_cons] at known
    unfold Form.evalCond
    split
    · exact l.obeys_fail _
    · exact l.obeys_fail _
    · next test body elements =>
      have inner := l.value_of_toList? known.1 elements
      rw [List.forall_mem_cons] at inner
      split
      · split
        · exact l.obeys_fail _
        · exact l.obeys_evalSequence each form.span inFrame inner.2
      · refine l.bind (each w f test inFrame inner.1) fun w' v later result => ?_
        have inFrame' := l.frame_later later inFrame
        split
        · split
          · exact l.pure result
          · exact l.obeys_evalSequence each form.span inFrame' (l.forall_value_later later inner.2)
        · exact ih inFrame' (l.forall_value_later later known.2)

omit each in
theorem obeys_evalLambda (form : Value) {operands : List Value} (inFrame : l.frame w f)
    (known : ∀ e ∈ operands, l.value w e) :
    l.Obeys w f (Form.evalLambda f form operands) l.value := by
  unfold Form.evalLambda
  split
  · exact l.obeys_fail _
  · next params body =>
    rw [List.forall_mem_cons] at known
    apply l.obeys_unless
    refine l.obeys_check fun w' signature later _ => ?_
    exact l.makeClosure none form.span (l.frame_later later inFrame)
      (l.forall_value_later later known.2)

theorem obeys_evalBindings (form : Value) {bs : List Value} (inFrame : l.frame w f)
    (known : ∀ b ∈ bs, l.value w b) :
    l.Obeys w f (Form.evalBindings ev f form bs) fun w' bound => ∀ v ∈ bound.2, l.value w' v := by
  induction bs generalizing w with
  | nil => exact l.pure fun _ none => nomatch none
  | cons b bs ih =>
    rw [List.forall_mem_cons] at known
    unfold Form.evalBindings
    split
    · next target expression elements =>
      have inner := l.value_of_toList? known.1 elements
      simp only [List.forall_mem_cons] at inner
      refine l.obeys_check fun w₁ name later₁ _ => ?_
      have inFrame₁ := l.frame_later later₁ inFrame
      refine l.bind (each w₁ f expression inFrame₁ (l.value_later later₁ inner.2.1))
        fun w₂ v later₂ first => ?_
      have known₂ := l.forall_value_later later₂ (l.forall_value_later later₁ known.2)
      refine l.bind (ih (l.frame_later later₂ inFrame₁) known₂) fun w₃ rest later₃ others => ?_
      exact l.pure (List.forall_mem_cons.mpr ⟨l.value_later later₃ first, others⟩)
    · exact l.obeys_fail _

theorem obeys_evalLet (form : Value) {operands : List Value} (inFrame : l.frame w f)
    (known : ∀ e ∈ operands, l.value w e) :
    l.Obeys w f (Form.evalLet ev f form operands) l.value := by
  unfold Form.evalLet
  split
  · exact l.obeys_fail _
  · next bindings body =>
    rw [List.forall_mem_cons] at known
    apply l.obeys_unless
    cases elements : bindings.toList? with
    | none => exact l.obeys_fail _
    | some bs =>
      have inner := l.value_of_toList? known.1 elements
      refine l.bind (l.obeys_evalBindings each form inFrame inner)
        fun w₁ bound later₁ values => ?_
      have inFrame₁ := l.frame_later later₁ inFrame
      have known₁ := l.forall_value_later later₁ known.2
      refine l.obeys_check fun w₂ _ later₂ _ => ?_
      refine l.obeys_extend (l.frame_later later₂ inFrame₁) (l.forall_value_later later₂ values)
        fun w₃ inner later₃ inFrame₃ => ?_
      exact l.obeys_evalSequence each form.span inFrame₃
        (l.forall_value_later later₃ (l.forall_value_later later₂ known₁))

theorem obeys_evalForm (k : Keyword) (form : Value) {operands : List Value}
    (inFrame : l.frame w f) (known : ∀ e ∈ operands, l.value w e) :
    l.Obeys w f (Form.eval ev k f form operands) l.value := by
  cases k with
  | quote =>
    simp only [Form.eval, Form.evalQuote]
    split
    · exact l.pure (known _ (List.mem_singleton_self _))
    · exact l.obeys_fail _
  | assign => exact l.obeys_evalAssign each form inFrame known
  | define => exact l.obeys_evalDefine each form inFrame known
  | conditional => exact l.obeys_evalConditional each form inFrame known
  | cond => exact l.obeys_evalCond each form inFrame known
  | sequence => exact l.obeys_evalSequence each form.span inFrame known
  | lambda => exact l.obeys_evalLambda form inFrame known
  | binding => exact l.obeys_evalLet each form inFrame known

theorem obeys_applyBy (p : Procedure) {args : List Value} {origin : Span} (span : Span)
    (callable : l.value w (.procedure origin p)) (known : ∀ v ∈ args, l.value w v) :
    l.Obeys w f (applyBy ev p args span) l.value := by
  cases p with
  | primitive p =>
    simp only [applyBy]
    split
    · exact l.obeys_call p span known
    · exact l.obeys_fail _
  | closure id name =>
    refine l.fetch callable (fun s t same => by rw [same]) fun s fetched => ?_
    cases found : s.closures[id]? with
    | none => exact l.obeys_fail _
    | some c =>
      obtain ⟨inFrame, bodyKnown⟩ := fetched c found
      refine l.obeys_extend inFrame known fun w' inner later inFrame' => ?_
      exact l.obeys_evalSequence each span inFrame' (l.forall_value_later later bodyKnown)

theorem obeys_evalApplication (form operator operands : Value) (inFrame : l.frame w f)
    (operatorKnown : l.value w operator) (operandsKnown : l.value w operands) :
    l.Obeys w f (evalApplication ev f form operator operands) l.value := by
  refine l.bind (each w f operator inFrame operatorKnown) fun w₁ v later₁ callable => ?_
  split
  · next p =>
    cases elements : operands.toList? with
    | none => exact l.obeys_fail _
    | some es =>
      have inner := l.value_of_toList? (l.value_later later₁ operandsKnown) elements
      refine l.bind (l.obeys_evalEach each (l.frame_later later₁ inFrame) inner)
        fun w₂ args later₂ values => ?_
      exact l.obeys_applyBy each p form.span (l.value_later later₂ callable) values
  · exact l.obeys_fail _

/-- One step: what is taken apart is known with the whole. -/
theorem obeys_evalStep {e : Value} (inFrame : l.frame w f) (known : l.value w e) :
    l.Obeys w f (evalStep ev f e) l.value := by
  cases e with
  | atom span a =>
    cases a with
    | symbol name => exact l.lookup name span inFrame
    | boolean | number | character | string => exact l.pure known
  | nil span => exact l.obeys_fail _
  | leaf => exact l.obeys_fail _
  | pair span mark operator operands =>
    obtain ⟨operatorKnown, operandsKnown⟩ := l.parts known
    simp only [evalStep]
    split
    · next k keyword =>
      cases elements : operands.toList? with
      | none => exact l.obeys_fail _
      | some es =>
        exact l.obeys_evalForm each k _ inFrame (l.value_of_toList? operandsKnown elements)
    · exact l.obeys_evalApplication each _ operator operands inFrame operatorKnown operandsKnown

end Forms

/-- Every evaluation, however deep, obeys the logic. -/
theorem obeys_eval (fuel : Nat) {e : Value} (inFrame : l.frame w f) (known : l.value w e) :
    l.Obeys w f (eval fuel f e) l.value := by
  induction fuel generalizing w f e with
  | zero => exact l.stop .exhausted
  | succ fuel ih => exact l.obeys_evalStep (fun _ _ _ => ih) inFrame known

/-- Every call obeys the logic, for whatever frame it is made. -/
theorem obeys_apply (fuel : Nat) (p : Procedure) {args : List Value} {origin : Span} (span : Span)
    (callable : l.value w (.procedure origin p)) (known : ∀ v ∈ args, l.value w v) :
    l.Obeys w f (apply fuel p args span) l.value :=
  l.obeys_applyBy (fun _ _ _ => l.obeys_eval fuel) p span callable known

end EvalLogic
end MiniScheme
