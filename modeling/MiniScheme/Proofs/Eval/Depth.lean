import MiniScheme.Proofs.Eval.Discipline

/-!
# More depth changes no answer

The depth that an evaluation is allowed decides only whether it ends. If it ends, with a value or an
error, then it ends the same way and leaves the same store whenever more depth is allowed
(`eval_deepens`), so the depth at which one looks at an answer does not matter (`eval_eq_of_ends`).

`Machine.Deepens` compares two computations of which the first may have been cut short. One lemma
for each form says that it keeps the comparison of its parts.
-/
namespace MiniScheme

namespace Machine

variable {α β : Type} {P : α → α → Prop} {Q : β → β → Prop}

/-- Unless the first has run out of depth, both have ended in the same store, with the same error or
with results as `P` says. -/
inductive Deepened (P : α → α → Prop) :
    EStateM.Result Stop Store α → EStateM.Result Stop Store α → Prop where
  | value {a a' : α} (s : Store) (result : P a a') : Deepened P (.ok a s) (.ok a' s)
  | failed (e : EvalError) (s : Store) : Deepened P (.error (.failed e) s) (.error (.failed e) s)
  | exhausted (s : Store) (r : EStateM.Result Stop Store α) :
      Deepened P (.error .exhausted s) r

/-- From every store the second computation ends as the first does, if that ends. -/
def Deepens (P : α → α → Prop) (m m' : Machine α) : Prop := ∀ s, Deepened P (m s) (m' s)

theorem deepens_pure {a a' : α} (result : P a a') : Deepens P (pure a) (pure a') :=
  fun s => .value s result

/-- What does not depend on the depth. -/
theorem deepens_self (m : Machine α) : Deepens Eq m m := by
  intro s
  cases m s with
  | ok a s' => exact .value s' rfl
  | error why s' =>
    cases why with
    | failed e => exact .failed e s'
    | exhausted => exact .exhausted s' _

theorem Deepens.mono {R : α → α → Prop} {m m' : Machine α} (deepens : Deepens P m m')
    (weaker : ∀ a a', P a a' → R a a') : Deepens R m m' := by
  intro s
  have both := deepens s
  generalize m s = r at both ⊢
  generalize m' s = r' at both ⊢
  cases both with
  | value s' result => exact .value s' (weaker _ _ result)
  | failed e s' => exact .failed e s'
  | exhausted s' r => exact .exhausted s' _

theorem Deepens.bind {m m' : Machine α} {next next' : α → Machine β} (first : Deepens P m m')
    (rest : ∀ a a', P a a' → Deepens Q (next a) (next' a')) :
    Deepens Q (m >>= next) (m' >>= next') := by
  intro s
  change Deepened Q (EStateM.bind m next s) (EStateM.bind m' next' s)
  unfold EStateM.bind
  have begun := first s
  generalize m s = r at begun ⊢
  generalize m' s = r' at begun ⊢
  cases begun with
  | value s' result => exact rest _ _ result s'
  | failed e s' => exact .failed e s'
  | exhausted s' r => exact .exhausted s' _

/-- Both go on alike from one and the same result. -/
theorem Deepens.andThen {m m' : Machine α} {next next' : α → Machine β} (first : Deepens Eq m m')
    (rest : ∀ a, Deepens Q (next a) (next' a)) : Deepens Q (m >>= next) (m' >>= next') := by
  refine first.bind ?_
  rintro a - rfl
  exact rest a

theorem Deepens.eq_of_ends {m m' : Machine α} (deepens : Deepens Eq m m') {s : Store}
    (ends : m.outcome s ≠ .error .exhausted) : m' s = m s := by
  have both := deepens s
  unfold outcome at ends
  generalize m s = r at both ends ⊢
  generalize m' s = r' at both ⊢
  cases both with
  | value s' same => rw [same]
  | failed => rfl
  | exhausted => exact absurd rfl ends

end Machine

section Parts

open Machine

/-! Each form over two evaluators, of which the second goes deeper. -/

variable {ev ev' : Evaluator} (parts : ∀ f e, Deepens Eq (ev f e) (ev' f e))
include parts

namespace Form

theorem deepens_evalSequence (f : FrameId) (span : Span) (es : List Value) :
    Deepens Eq (evalSequence ev f span es) (evalSequence ev' f span es) := by
  induction es with
  | nil => exact deepens_self _
  | cons e es ih =>
    cases es with
    | nil => exact parts f e
    | cons => exact (parts f e).andThen fun _ => ih

theorem deepens_evalEach (f : FrameId) (es : List Value) :
    Deepens Eq (evalEach ev f es) (evalEach ev' f es) := by
  induction es with
  | nil => exact deepens_self _
  | cons e es ih => exact (parts f e).andThen fun _ => ih.andThen fun _ => deepens_self _

theorem deepens_evalAssign (f : FrameId) (form : Value) (operands : List Value) :
    Deepens Eq (evalAssign ev f form operands) (evalAssign ev' f form operands) := by
  unfold evalAssign
  split
  · next target expression =>
    exact (deepens_self _).andThen fun _ => (parts f expression).andThen fun _ => deepens_self _
  · exact deepens_self _

theorem deepens_evalDefine (f : FrameId) (form : Value) (operands : List Value) :
    Deepens Eq (evalDefine ev f form operands) (evalDefine ev' f form operands) := by
  unfold evalDefine
  split
  · exact deepens_self _
  · next rest =>
    split
    · next expression => exact (parts f expression).andThen fun _ => deepens_self _
    · exact deepens_self _
  · exact deepens_self _
  · exact deepens_self _

theorem deepens_evalConditional (f : FrameId) (form : Value) (operands : List Value) :
    Deepens Eq (evalConditional ev f form operands) (evalConditional ev' f form operands) := by
  unfold evalConditional
  split
  · next condition consequent =>
    refine (parts f condition).andThen fun v => ?_
    split
    · exact parts f consequent
    · exact deepens_self _
  · next condition consequent alternate =>
    refine (parts f condition).andThen fun v => ?_
    split
    · exact parts f consequent
    · exact parts f alternate
  · exact deepens_self _

theorem deepens_evalCond (f : FrameId) (form : Value) (clauses : List Value) :
    Deepens Eq (evalCond ev f form clauses) (evalCond ev' f form clauses) := by
  induction clauses with
  | nil => exact deepens_self _
  | cons clause clauses ih =>
    unfold evalCond
    split
    · exact deepens_self _
    · exact deepens_self _
    · next test body _ =>
      have sequence := deepens_evalSequence parts f form.span body
      split
      · split
        · exact deepens_self _
        · exact sequence
      · refine (parts f test).andThen fun v => ?_
        split
        · split
          · exact deepens_self _
          · exact sequence
        · exact ih

theorem deepens_evalBindings (f : FrameId) (form : Value) (bs : List Value) :
    Deepens Eq (evalBindings ev f form bs) (evalBindings ev' f form bs) := by
  induction bs with
  | nil => exact deepens_self _
  | cons b bs ih =>
    unfold evalBindings
    split
    · next target expression _ =>
      refine (deepens_self _).andThen fun name => ?_
      refine (parts f expression).andThen fun v => ?_
      exact ih.andThen fun _ => deepens_self _
    · exact deepens_self _

theorem deepens_evalLet (f : FrameId) (form : Value) (operands : List Value) :
    Deepens Eq (evalLet ev f form operands) (evalLet ev' f form operands) := by
  unfold evalLet
  split
  · exact deepens_self _
  · next bindings body =>
    dsimp only
    split
    · exact deepens_self _
    · split
      · exact deepens_self _
      · next bs _ =>
        refine (deepens_evalBindings parts f form bs).andThen fun bound => ?_
        refine (deepens_self _).andThen fun _ => (deepens_self _).andThen fun inner => ?_
        exact deepens_evalSequence parts inner form.span body

theorem deepens_eval (k : Keyword) (f : FrameId) (form : Value) (operands : List Value) :
    Deepens Eq (Form.eval ev k f form operands) (Form.eval ev' k f form operands) := by
  cases k with
  | quote => exact deepens_self _
  | assign => exact deepens_evalAssign parts f form operands
  | define => exact deepens_evalDefine parts f form operands
  | conditional => exact deepens_evalConditional parts f form operands
  | cond => exact deepens_evalCond parts f form operands
  | sequence => exact deepens_evalSequence parts f form.span operands
  | lambda => exact deepens_self _
  | binding => exact deepens_evalLet parts f form operands

end Form

theorem deepens_applyBy (p : Procedure) (args : List Value) (span : Span) :
    Deepens Eq (applyBy ev p args span) (applyBy ev' p args span) := by
  cases p with
  | primitive p => exact deepens_self _
  | closure id name =>
    intro s
    rw [applyBy_closure, applyBy_closure]
    cases s.closures[id]? with
    | none => exact .failed _ s
    | some c =>
      exact (deepens_self (Machine.extend c.frame c.formals c.variadic args span)).andThen
        (fun inner => Form.deepens_evalSequence parts inner span c.body) s

theorem deepens_evalApplication (f : FrameId) (form operator operands : Value) :
    Deepens Eq (evalApplication ev f form operator operands)
      (evalApplication ev' f form operator operands) := by
  refine (parts f operator).andThen fun v => ?_
  split
  · split
    · exact deepens_self _
    · next es _ =>
      exact (Form.deepens_evalEach parts f es).andThen fun args =>
        deepens_applyBy parts _ args form.span
  · exact deepens_self _

theorem deepens_evalStep (f : FrameId) (e : Value) :
    Deepens Eq (evalStep ev f e) (evalStep ev' f e) := by
  unfold evalStep
  split
  · exact deepens_self _
  · exact deepens_self _
  · exact deepens_self _
  · split
    · split
      · exact deepens_self _
      · exact Form.deepens_eval parts _ f _ _
    · exact deepens_evalApplication parts f _ _ _
  · exact deepens_self _

end Parts

/-- An evaluation that ends, ends the same way with more depth. -/
theorem eval_deepens {fuel fuel' : Nat} (deeper : fuel ≤ fuel') (f : FrameId) (e : Value) :
    Machine.Deepens Eq (eval fuel f e) (eval fuel' f e) := by
  induction fuel generalizing fuel' f e with
  | zero => exact fun s => .exhausted s _
  | succ fuel ih =>
    obtain ⟨fuel', rfl⟩ := Nat.exists_eq_add_of_le' (Nat.lt_of_lt_of_le fuel.succ_pos deeper)
    exact deepens_evalStep (fun f e => ih (Nat.le_of_succ_le_succ deeper) f e) f e

/-- The depth at which an evaluation is seen to end does not matter. -/
theorem eval_eq_of_ends {fuel fuel' : Nat} {f : FrameId} {e : Value} {s : Store}
    (ends : (eval fuel f e).outcome s ≠ .error .exhausted)
    (ends' : (eval fuel' f e).outcome s ≠ .error .exhausted) :
    eval fuel f e s = eval fuel' f e s := by
  obtain deeper | deeper := Nat.le_total fuel fuel'
  · exact ((eval_deepens deeper f e).eq_of_ends ends).symm
  · exact (eval_deepens deeper f e).eq_of_ends ends'

end MiniScheme
