import MiniScheme.Session

/-!
# Programs never evaluate what only a computation makes

Expressions and values are of one type, so nothing in the types keeps a procedure or the unspecified
value from being evaluated. What keeps it is an invariant: every expression handed to the evaluator
and every body of a closure in the store is code, a tree without computed leaves. Values bound in
frames may be anything, since no part of the evaluator hands a value back to it.

The invariant is watched at every evaluation, however deep: `evalWatched` looks at the expression
and at the whole store each time and stops if either is at fault. It is shown to agree with `eval`,
store and errors included, and never to stop so.
-/
namespace MiniScheme

/-- No leaf of the tree is a procedure or unspecified. -/
def Value.isCode : Value → Bool
  | .atom _ _ => true
  | .nil _ => true
  | .pair _ _ car cdr => isCode car && isCode cdr
  | .leaf _ _ => false

/-- Every expression of every closure is code. -/
def Store.isCodeOnly (s : Store) : Bool :=
  s.closures.all fun c => c.body.all Value.isCode

def EvalError.isInternal : EvalError → Bool
  | .notCode _ => true
  | _ => false

/-- Looks at the expression and the store before evaluating; what is not code stops with an internal
error. -/
def watched (ev : Evaluator) : Evaluator := fun f e s =>
  if e.isCode && s.isCodeOnly then ev f e s else .error (.failed (.notCode e)) s

/-- As `eval`, with every nested evaluation watched. -/
def evalWatched : Nat → Evaluator
  | 0 => watched fun _ _ => throw .exhausted
  | fuel + 1 => watched (evalStep (evalWatched fuel))

namespace Store

@[simp] theorem addFrame_closures (s : Store) (f : Frame) :
    (s.addFrame f).2.closures = s.closures := rfl

@[simp] theorem addPair_closures (s : Store) (span : Span) (car cdr : Value) :
    (s.addPair span car cdr).2.closures = s.closures := rfl

@[simp] theorem define_closures (s : Store) (f : FrameId) (name : String) (v : Value) :
    (s.define f name v).closures = s.closures := rfl

@[simp] theorem load_closures (s : Store) (d : Datum) : (s.load d).2.closures = s.closures := rfl

@[simp] theorem addList_closures (s : Store) (tail : Value) (vs : List Value) :
    (s.addList tail vs).2.closures = s.closures := by
  induction vs with
  | nil => rfl
  | cons v vs ih => simpa only [addList, addPair_closures] using ih

@[simp] theorem bindFormals_closures (s : Store) (parent : FrameId) (formals : List String)
    (variadic : Bool) (arguments : List Value) (span : Span) :
    (s.bindFormals parent formals variadic arguments span).2.closures = s.closures := by
  unfold bindFormals
  dsimp only
  split
  · rw [addFrame_closures, addList_closures]
  · rfl

theorem isCodeOnly_of_closures_eq {s s' : Store} (same : s'.closures = s.closures)
    (codeOnly : s.isCodeOnly) : s'.isCodeOnly := by
  rwa [isCodeOnly, same]

theorem isCodeOnly_addClosure {s : Store} {c : Closure} (codeOnly : s.isCodeOnly)
    (code : c.body.all Value.isCode) : (s.addClosure c).2.isCodeOnly := by
  simp only [isCodeOnly, addClosure, Array.all_push, code, Bool.and_true]
  exact codeOnly

theorem all_isCode_of_getElem? {s : Store} {id : ClosureId} {c : Closure}
    (codeOnly : s.isCodeOnly) (found : s.closures[id]? = some c) : c.body.all Value.isCode := by
  exact Array.all_eq_true_iff_forall_mem.mp codeOnly c (Array.mem_of_getElem? found)

end Store

/-- The elements of a list that is code are code. -/
theorem Value.all_isCode_of_toList? {v : Value} {es : List Value} (code : v.isCode)
    (elements : v.toList? = some es) : es.all Value.isCode := by
  induction v generalizing es with
  | atom => cases elements
  | leaf => cases elements
  | nil =>
    cases elements
    rfl
  | pair span mark car cdr _ ih =>
    simp only [isCode, Bool.and_eq_true] at code
    obtain ⟨rest, restElements, rfl⟩ := Option.map_eq_some_iff.mp elements
    rw [List.all_cons, code.1, ih code.2 restElements]
    rfl

namespace CodeOnly

/-- A result that leaves only code in the store and is no internal error. -/
def Safe {α : Type} : EStateM.Result Stop Store α → Prop
  | .ok _ s => s.isCodeOnly
  | .error .exhausted s => s.isCodeOnly
  | .error (.failed e) s => s.isCodeOnly ∧ e.isInternal = false

/-- From every store of code the two computations do the same, and that is safe. -/
def Agrees {α : Type} (m m' : Machine α) : Prop :=
  ∀ s : Store, s.isCodeOnly → m s = m' s ∧ Safe (m s)

theorem agrees_pure {α : Type} (a : α) : Agrees (pure a : Machine α) (pure a) :=
  fun _ codeOnly => ⟨rfl, codeOnly⟩

theorem agrees_bind {α β : Type} {m m' : Machine α} {next next' : α → Machine β}
    (first : Agrees m m') (rest : ∀ a, Agrees (next a) (next' a)) :
    Agrees (m >>= next) (m' >>= next') := by
  intro s codeOnly
  obtain ⟨same, safe⟩ := first s codeOnly
  change EStateM.bind m next s = EStateM.bind m' next' s ∧ Safe (EStateM.bind m next s)
  unfold EStateM.bind
  rw [← same]
  cases result : m s with
  | ok a s' =>
    rw [result] at safe
    exact rest a s' safe
  | error stop s' =>
    rw [result] at safe
    cases stop <;> exact ⟨rfl, safe⟩

theorem agrees_fail {α : Type} {e : EvalError} (external : e.isInternal = false) :
    Agrees (Machine.fail e : Machine α) (Machine.fail e) :=
  fun _ codeOnly => ⟨rfl, codeOnly, external⟩

/-- An outcome that is no internal error. -/
def External {α : Type} (x : Except EvalError α) : Prop :=
  ∀ e, x = .error e → e.isInternal = false

theorem external_ok {α : Type} (a : α) : External (.ok a) := fun _ error => nomatch error

theorem external_error {α : Type} {e : EvalError} (external : e.isInternal = false) :
    External (.error e : Except EvalError α) := by
  intro e' error
  cases error
  exact external

theorem external_map {α β : Type} {x : Except EvalError α} (f : α → β) (external : External x) :
    External (x.map f) := by
  cases x with
  | ok a => exact external_ok (f a)
  | error e => exact external_error (external e rfl)

theorem agrees_ofExcept {α : Type} {x : Except EvalError α} (external : External x) :
    Agrees (Machine.ofExcept x) (Machine.ofExcept x) := by
  cases x with
  | ok a => exact agrees_pure a
  | error e => exact agrees_fail (external e rfl)

theorem agrees_make {α : Type} {f : Store → α × Store}
    (keeps : ∀ s : Store, s.isCodeOnly → (f s).2.isCodeOnly) :
    Agrees (Machine.make f) (Machine.make f) :=
  fun s codeOnly => ⟨rfl, keeps s codeOnly⟩

/-- A check that fails first or else lets the rest go on. -/
theorem agrees_unless {α : Type} {refused : Bool} {e : EvalError} {rest rest' : Unit → Machine α}
    (external : e.isInternal = false) (agree : Agrees (rest ()) (rest' ())) :
    Agrees (if refused then Machine.fail e >>= rest else rest ())
      (if refused then Machine.fail e >>= rest' else rest' ()) := by
  cases refused with
  | true => exact fun _ codeOnly => ⟨rfl, codeOnly, external⟩
  | false => exact agree

/-- What is read of the store is read of a store of code. -/
theorem agrees_get {α : Type} {next next' : Store → Machine α}
    (rest : ∀ s : Store, s.isCodeOnly → Agrees (next s) (next' s)) :
    Agrees (get >>= next) (get >>= next') :=
  fun s codeOnly => rest s codeOnly s codeOnly

theorem agrees_lookup (f : FrameId) (name : String) (span : Span) :
    Agrees (Machine.lookup f name span) (Machine.lookup f name span) := by
  unfold Machine.lookup
  apply agrees_get
  intro s codeOnly
  split
  · exact agrees_pure _
  · exact agrees_fail rfl

theorem agrees_assign (f : FrameId) (name : String) (v : Value) (span : Span) :
    Agrees (Machine.assign f name v span) (Machine.assign f name v span) := by
  intro s codeOnly
  refine ⟨rfl, ?_⟩
  unfold Machine.assign Store.set?
  cases s.find? f name with
  | none => exact ⟨codeOnly, rfl⟩
  | some found => exact codeOnly

theorem agrees_define (f : FrameId) (name : String) (v : Value) :
    Agrees (Machine.define f name v) (Machine.define f name v) :=
  fun s codeOnly => ⟨rfl, Store.isCodeOnly_of_closures_eq (s.define_closures f name v) codeOnly⟩

theorem agrees_extend (parent : FrameId) (formals : List String) (variadic : Bool)
    (arguments : List Value) (span : Span) :
    Agrees (Machine.extend parent formals variadic arguments span)
      (Machine.extend parent formals variadic arguments span) := by
  unfold Machine.extend
  dsimp only
  split
  · exact agrees_make fun s codeOnly =>
      Store.isCodeOnly_of_closures_eq
        (s.bindFormals_closures parent formals variadic arguments span) codeOnly
  · exact agrees_fail rfl

theorem external_numbersFrom (p : Primitive) (span : Span) (position : Nat) (args : List Value) :
    External (p.numbersFrom span position args) := by
  fun_induction Primitive.numbersFrom p span position args with
  | case1 => exact external_ok []
  | case2 position span' x rest ih => exact external_map _ ih
  | case3 => exact external_error rfl

theorem external_difference (args : List Value) (span : Span) :
    External (Primitive.difference args span) := by
  unfold Primitive.difference
  split
  · next e inner => exact external_error (external_numbersFrom _ _ _ _ e inner)
  · exact external_error rfl
  · exact external_ok _
  · exact external_ok _

theorem external_divideBy (x : Float) (divisors : List Float) (span : Span) :
    External (Primitive.divideBy x divisors span) := by
  unfold Primitive.divideBy
  split
  · exact external_error rfl
  · exact external_ok _

theorem external_quotient (args : List Value) (span : Span) :
    External (Primitive.quotient args span) := by
  unfold Primitive.quotient
  split
  · next e inner => exact external_error (external_numbersFrom _ _ _ _ e inner)
  · exact external_error rfl
  · exact external_divideBy _ _ _
  · exact external_divideBy _ _ _

theorem external_part (p : Primitive) (select : Value → Value → Value) (args : List Value)
    (span : Span) : External (p.part select args span) := by
  unfold Primitive.part
  split
  · exact external_ok _
  · exact external_error rfl
  · exact external_error rfl

theorem external_test (holds : Value → Bool) (args : List Value) (span : Span) :
    External (Primitive.test holds args span) := by
  unfold Primitive.test
  split
  · exact external_ok _
  · exact external_error rfl

theorem external_relate (holds : Value → Value → Bool) (args : List Value) (span : Span) :
    External (Primitive.relate holds args span) := by
  unfold Primitive.relate
  split
  · exact external_ok _
  · exact external_error rfl

theorem agrees_call (p : Primitive) (args : List Value) (span : Span) :
    Agrees (p.call args span) (p.call args span) := by
  cases p with
  | add | multiply | equals | less | lessOrEqual | greater | greaterOrEqual =>
    exact agrees_ofExcept (external_map _ (external_numbersFrom _ _ _ _))
  | subtract => exact agrees_ofExcept (external_difference args span)
  | divide => exact agrees_ofExcept (external_quotient args span)
  | car | cdr => exact agrees_ofExcept (external_part _ _ args span)
  | cons =>
    simp only [Primitive.call]
    split
    · exact agrees_make fun _ codeOnly => codeOnly
    · exact agrees_fail rfl
  | list =>
    exact agrees_make fun s codeOnly =>
      Store.isCodeOnly_of_closures_eq (s.addList_closures (.nil span) args) codeOnly
  | isNull | isPair | isNumber | isBoolean | isSymbol | isString | isCharacter | isProcedure
  | not =>
    exact agrees_ofExcept (external_test _ args span)
  | isSame | isEqual => exact agrees_ofExcept (external_relate _ args span)

section Forms

/-! Each form over two evaluators for its parts that agree on code. -/

variable {ev ev' : Evaluator} (parts : ∀ f e, e.isCode → Agrees (ev f e) (ev' f e))
include parts

theorem agrees_evalSequence (f : FrameId) (span : Span) (es : List Value)
    (code : es.all Value.isCode) :
    Agrees (Form.evalSequence ev f span es) (Form.evalSequence ev' f span es) := by
  induction es with
  | nil => exact agrees_pure _
  | cons e es ih =>
    rw [List.all_cons, Bool.and_eq_true] at code
    cases es with
    | nil => exact parts f e code.1
    | cons e' es => exact agrees_bind (parts f e code.1) fun _ => ih code.2

theorem agrees_evalEach (f : FrameId) (es : List Value) (code : es.all Value.isCode) :
    Agrees (Form.evalEach ev f es) (Form.evalEach ev' f es) := by
  induction es with
  | nil => exact agrees_pure _
  | cons e es ih =>
    rw [List.all_cons, Bool.and_eq_true] at code
    exact agrees_bind (parts f e code.1) fun _ => agrees_bind (ih code.2) fun _ => agrees_pure _

omit parts in
theorem agrees_makeClosure {c : Closure} (name : Option String) (span : Span)
    (code : c.body.all Value.isCode) :
    Agrees (Form.makeClosure c name span) (Form.makeClosure c name span) :=
  agrees_bind (agrees_make fun _ codeOnly => Store.isCodeOnly_addClosure codeOnly code)
    fun _ => agrees_pure _

omit parts in
theorem external_expectSymbol (v : Value) : External (Form.expectSymbol v) := by
  intro e error
  unfold Form.expectSymbol at error
  split at error <;> cases error
  rfl

omit parts in
theorem external_ensureDistinct (names : List String) (form : Value) :
    External (Form.ensureDistinct names form) := by
  intro e error
  unfold Form.ensureDistinct at error
  split at error <;> cases error
  rfl

omit parts in
theorem external_formalNames (v : Value) : External (Form.formalNames v) := by
  intro e error
  fun_induction Form.formalNames v with
  | case1 => cases error
  | case2 span mark car cdr e' inner =>
    cases error
    exact external_expectSymbol car e inner
  | case3 span mark car cdr name inner ih =>
    cases rest : Form.formalNames cdr with
    | ok result =>
      rw [rest] at error
      cases error
    | error e' =>
      rw [rest] at error
      cases error
      exact ih rest
  | case4 => cases error
  | case5 =>
    cases error
    rfl

omit parts in
theorem external_formals (v form : Value) : External (Form.formals v form) := by
  intro e error
  unfold Form.formals at error
  split at error
  · next inner =>
    cases error
    exact external_formalNames v _ inner
  · next result inner =>
    cases distinct : Form.ensureDistinct result.1 form with
    | ok _ =>
      rw [distinct] at error
      cases error
    | error e' =>
      rw [distinct] at error
      cases error
      exact external_ensureDistinct _ _ e distinct

theorem agrees_evalAssign (f : FrameId) (form : Value) (operands : List Value)
    (code : operands.all Value.isCode) :
    Agrees (Form.evalAssign ev f form operands) (Form.evalAssign ev' f form operands) := by
  unfold Form.evalAssign
  split
  · next target expression =>
    simp only [List.all_cons, Bool.and_eq_true] at code
    exact agrees_bind (agrees_ofExcept (external_expectSymbol target)) fun name =>
      agrees_bind (parts f expression code.2.1) fun v =>
        agrees_bind (agrees_assign f name v form.span) fun _ => agrees_pure _
  · exact agrees_fail rfl

theorem agrees_evalDefine (f : FrameId) (form : Value) (operands : List Value)
    (code : operands.all Value.isCode) :
    Agrees (Form.evalDefine ev f form operands) (Form.evalDefine ev' f form operands) := by
  unfold Form.evalDefine
  split
  · exact agrees_fail rfl
  · next name rest =>
    split
    · next expression =>
      simp only [List.all_cons, Bool.and_eq_true] at code
      exact agrees_bind (parts f expression code.2.1) fun v =>
        agrees_bind (agrees_define f name v) fun _ => agrees_pure _
    · exact agrees_fail rfl
  · next target params body =>
    rw [List.all_cons, Bool.and_eq_true] at code
    exact agrees_unless rfl <|
      agrees_bind (agrees_ofExcept (external_expectSymbol target)) fun name =>
        agrees_bind (agrees_ofExcept (external_formals params form)) fun signature =>
          agrees_bind (agrees_makeClosure (some name) form.span code.2) fun v =>
            agrees_bind (agrees_define f name v) fun _ => agrees_pure _
  · exact agrees_fail rfl

theorem agrees_evalConditional (f : FrameId) (form : Value) (operands : List Value)
    (code : operands.all Value.isCode) :
    Agrees (Form.evalConditional ev f form operands)
      (Form.evalConditional ev' f form operands) := by
  unfold Form.evalConditional
  split
  · next condition consequent =>
    simp only [List.all_cons, Bool.and_eq_true] at code
    apply agrees_bind (parts f condition code.1)
    intro v
    split
    · exact parts f consequent code.2.1
    · exact agrees_pure _
  · next condition consequent alternate =>
    simp only [List.all_cons, Bool.and_eq_true] at code
    apply agrees_bind (parts f condition code.1)
    intro v
    split
    · exact parts f consequent code.2.1
    · exact parts f alternate code.2.2.1
  · exact agrees_fail rfl

theorem agrees_evalCond (f : FrameId) (form : Value) (clauses : List Value)
    (code : clauses.all Value.isCode) :
    Agrees (Form.evalCond ev f form clauses) (Form.evalCond ev' f form clauses) := by
  induction clauses with
  | nil => exact agrees_pure _
  | cons clause clauses ih =>
    rw [List.all_cons, Bool.and_eq_true] at code
    unfold Form.evalCond
    split
    · exact agrees_fail rfl
    · exact agrees_fail rfl
    · next test body elements =>
      have parts' := Value.all_isCode_of_toList? code.1 elements
      rw [List.all_cons, Bool.and_eq_true] at parts'
      have sequence := agrees_evalSequence parts f form.span body parts'.2
      split
      · split
        · exact agrees_fail rfl
        · exact sequence
      · apply agrees_bind (parts f test parts'.1)
        intro v
        split
        · split
          · exact agrees_pure _
          · exact sequence
        · exact ih code.2

omit parts in
theorem agrees_evalLambda (f : FrameId) (form : Value) (operands : List Value)
    (code : operands.all Value.isCode) :
    Agrees (Form.evalLambda f form operands) (Form.evalLambda f form operands) := by
  unfold Form.evalLambda
  split
  · exact agrees_fail rfl
  · next params body =>
    rw [List.all_cons, Bool.and_eq_true] at code
    exact agrees_unless rfl <|
      agrees_bind (agrees_ofExcept (external_formals params form)) fun signature =>
        agrees_makeClosure none form.span code.2

theorem agrees_evalBindings (f : FrameId) (form : Value) (bs : List Value)
    (code : bs.all Value.isCode) :
    Agrees (Form.evalBindings ev f form bs) (Form.evalBindings ev' f form bs) := by
  induction bs with
  | nil => exact agrees_pure _
  | cons b bs ih =>
    rw [List.all_cons, Bool.and_eq_true] at code
    unfold Form.evalBindings
    split
    · next target expression elements =>
      have parts' := Value.all_isCode_of_toList? code.1 elements
      simp only [List.all_cons, Bool.and_eq_true] at parts'
      exact agrees_bind (agrees_ofExcept (external_expectSymbol target)) fun _ =>
        agrees_bind (parts f expression parts'.2.1) fun _ =>
          agrees_bind (ih code.2) fun _ => agrees_pure _
    · exact agrees_fail rfl

theorem agrees_evalLet (f : FrameId) (form : Value) (operands : List Value)
    (code : operands.all Value.isCode) :
    Agrees (Form.evalLet ev f form operands) (Form.evalLet ev' f form operands) := by
  unfold Form.evalLet
  split
  · exact agrees_fail rfl
  · next bindings body =>
    rw [List.all_cons, Bool.and_eq_true] at code
    apply agrees_unless rfl
    cases elements : bindings.toList? with
    | none => exact agrees_fail rfl
    | some bs =>
      have parts' := Value.all_isCode_of_toList? code.1 elements
      exact agrees_bind (agrees_evalBindings parts f form bs parts') fun bound =>
        agrees_bind (agrees_ofExcept (external_ensureDistinct bound.1 form)) fun _ =>
          agrees_bind (agrees_extend f bound.1 false bound.2 form.span) fun inner =>
            agrees_evalSequence parts inner form.span body code.2

theorem agrees_evalForm (k : Keyword) (f : FrameId) (form : Value) (operands : List Value)
    (code : operands.all Value.isCode) :
    Agrees (Form.eval ev k f form operands) (Form.eval ev' k f form operands) := by
  cases k with
  | quote =>
    simp only [Form.eval, Form.evalQuote]
    split
    · exact agrees_pure _
    · exact agrees_fail rfl
  | assign => exact agrees_evalAssign parts f form operands code
  | define => exact agrees_evalDefine parts f form operands code
  | conditional => exact agrees_evalConditional parts f form operands code
  | cond => exact agrees_evalCond parts f form operands code
  | sequence => exact agrees_evalSequence parts f form.span operands code
  | lambda => exact agrees_evalLambda f form operands code
  | binding => exact agrees_evalLet parts f form operands code

theorem agrees_applyBy (p : Procedure) (args : List Value) (span : Span) :
    Agrees (applyBy ev p args span) (applyBy ev' p args span) := by
  cases p with
  | primitive p =>
    simp only [applyBy]
    split
    · exact agrees_call p args span
    · exact agrees_fail rfl
  | closure id name =>
    apply agrees_get
    intro s codeOnly
    cases found : s.closures[id]? with
    | none => exact agrees_fail rfl
    | some c =>
      have code := Store.all_isCode_of_getElem? codeOnly found
      exact agrees_bind (agrees_extend c.frame c.formals c.variadic args span) fun inner =>
        agrees_evalSequence parts inner span c.body code

theorem agrees_evalApplication (f : FrameId) (form operator operands : Value)
    (code : operator.isCode) (operandsCode : operands.isCode) :
    Agrees (evalApplication ev f form operator operands)
      (evalApplication ev' f form operator operands) := by
  apply agrees_bind (parts f operator code)
  intro v
  split
  · next p =>
    cases elements : operands.toList? with
    | none => exact agrees_fail rfl
    | some es =>
      have code := Value.all_isCode_of_toList? operandsCode elements
      exact agrees_bind (agrees_evalEach parts f es code)
        fun args => agrees_applyBy parts p args form.span
  · exact agrees_fail rfl

/-- One step: code is taken apart into code. -/
theorem agrees_evalStep (f : FrameId) (e : Value) (code : e.isCode) :
    Agrees (evalStep ev f e) (evalStep ev' f e) := by
  cases e with
  | atom span a =>
    cases a with
    | symbol name => exact agrees_lookup f name span
    | boolean | number | character | string => exact agrees_pure _
  | nil span => exact agrees_fail rfl
  | leaf => cases code
  | pair span mark operator operands =>
    simp only [Value.isCode, Bool.and_eq_true] at code
    simp only [evalStep]
    split
    · next k keyword =>
      cases elements : operands.toList? with
      | none => exact agrees_fail rfl
      | some es =>
        exact agrees_evalForm parts k f _ es (Value.all_isCode_of_toList? code.2 elements)
    · exact agrees_evalApplication parts f _ operator operands code.1 code.2

end Forms

/-- All steps: on code the watched evaluator does what the other does, and never stops for what it
sees. -/
theorem agrees_eval (fuel : Nat) (f : FrameId) (e : Value) (code : e.isCode) :
    Agrees (eval fuel f e) (evalWatched fuel f e) := by
  induction fuel generalizing f e with
  | zero =>
    intro s codeOnly
    simp only [evalWatched, watched, code, codeOnly, Bool.and_self, if_true]
    exact ⟨rfl, codeOnly⟩
  | succ fuel ih =>
    intro s codeOnly
    simp only [evalWatched, watched, code, codeOnly, Bool.and_self, if_true]
    exact agrees_evalStep ih f e code s codeOnly

end CodeOnly
end MiniScheme
