import MiniScheme.Proofs.Eval.Depth
import MiniScheme.Proofs.Eval.LetAsCall
import MiniScheme.Proofs.Eval.Spans

/-!
# `cond` is a chain of `if`s

`(cond clause ...)` goes through its clauses in a loop that looks at the shape of each only when it
comes to it. The same is written by nesting: a clause with a test is an `if` whose alternate stands
for the clauses after it, an `else` clause is a `begin`, and no clause is an empty `begin`. The
nesting takes more depth than the loop, one evaluation for each clause, but tests and bodies are
evaluated in the same order in the same stores, so both end the same way or neither ends. The empty
`begin` is the only value that can differ, in its span.

A loop that has selected a clause never looks at the clauses after it (`evalCond_eq_of_selects`).
-/
namespace MiniScheme

open Machine

section Shapes

/-- A special form with its operands. -/
def IsForm (k : Keyword) (form : Value) (operands : List Value) : Prop :=
  ∃ keyword : Value, form.toList? = some (keyword :: operands) ∧ keyword.symbol? = some k.name

/-- `(else body ...)` with a body. -/
def IsElse (clause : Value) (body : List Value) : Prop :=
  ∃ word : Value, clause.toList? = some (word :: body) ∧ word.symbol? = some "else" ∧ body ≠ []

/-- `(test body ...)` with a body. -/
def IsTest (clause test : Value) (body : List Value) : Prop :=
  clause.toList? = some (test :: body) ∧ test.symbol? ≠ some "else" ∧ body ≠ []

/-- Every clause up to the first `else` has one of the two shapes; what comes after is anything. -/
inductive Shaped : List Value → Prop where
  | none : Shaped []
  | otherwise {clause : Value} {body : List Value} (isElse : IsElse clause body)
      (rest : List Value) : Shaped (clause :: rest)
  | test {clause test : Value} {body rest : List Value} (isTest : IsTest clause test body)
      (others : Shaped rest) : Shaped (clause :: rest)

/-- The expression says by `if` and `begin` what the clauses say. -/
inductive IsChain : List Value → Value → Prop where
  | none {chain : Value} (isBegin : IsForm .sequence chain []) : IsChain [] chain
  | otherwise {clause chain : Value} {body : List Value} (isElse : IsElse clause body)
      (rest : List Value) (isBegin : IsForm .sequence chain body) : IsChain (clause :: rest) chain
  | test {clause test branch alternate chain : Value} {body rest : List Value}
      (isTest : IsTest clause test body) (isBegin : IsForm .sequence branch body)
      (others : IsChain rest alternate)
      (isIf : IsForm .conditional chain [test, branch, alternate]) : IsChain (clause :: rest) chain

theorem exists_isForm (k : Keyword) (operands : List Value) : ∃ form, IsForm k form operands :=
  ⟨(Store.empty.addList (.nil default) (.atom default (.symbol k.name) :: operands)).1,
    .atom default (.symbol k.name), Store.toList?_addList _ _ _, rfl⟩

theorem Shaped.exists_isChain {clauses : List Value} (shaped : Shaped clauses) :
    ∃ chain, IsChain clauses chain := by
  induction shaped with
  | none =>
    obtain ⟨chain, isBegin⟩ := exists_isForm .sequence []
    exact ⟨chain, .none isBegin⟩
  | @otherwise clause body isElse rest =>
    obtain ⟨chain, isBegin⟩ := exists_isForm .sequence body
    exact ⟨chain, .otherwise isElse rest isBegin⟩
  | @test clause test body rest isTest _ ih =>
    obtain ⟨alternate, others⟩ := ih
    obtain ⟨branch, isBegin⟩ := exists_isForm .sequence body
    obtain ⟨chain, isIf⟩ := exists_isForm .conditional [test, branch, alternate]
    exact ⟨chain, .test isTest isBegin others isIf⟩

end Shapes

section Unfolding

variable {ev : Evaluator} {form clause test : Value} {operands body rest : List Value}

theorem IsForm.eval_eq {k : Keyword} (isForm : IsForm k form operands) (fuel : Nat) (f : FrameId) :
    eval (fuel + 1) f form = Form.eval (eval fuel) k f form operands := by
  obtain ⟨keyword, elements, named⟩ := isForm
  exact evalStep_of_keyword f elements named

theorem IsElse.evalCond (isElse : IsElse clause body) (f : FrameId) (form : Value)
    (rest : List Value) :
    Form.evalCond ev f form (clause :: rest) = Form.evalSequence ev f form.span body := by
  obtain ⟨word, items, named, nonempty⟩ := isElse
  simp [Form.evalCond, items, named, nonempty]

theorem IsTest.evalCond (isTest : IsTest clause test body) (f : FrameId) (form : Value)
    (rest : List Value) :
    Form.evalCond ev f form (clause :: rest) = (do
      let v ← ev f test
      if v.isTrue then Form.evalSequence ev f form.span body
      else Form.evalCond ev f form rest) := by
  obtain ⟨items, named, nonempty⟩ := isTest
  simp [Form.evalCond, items, named, nonempty]

end Unfolding

section Chains

/-- The same but for spans. -/
def Alike (v w : Value) : Prop := v.erase = w.erase

theorem Alike.of_eq (v w : Value) (same : v = w) : Alike v w := congrArg Sexpr.erase same

variable {fuel fuel' : Nat} {f : FrameId} {s : Store} {form chain branch : Value}
  {body clauses : List Value}

/-- Where a sequence stands matters only if it is empty, and then only for the span of the value. -/
theorem deepens_evalSequence_alike (deeper : fuel ≤ fuel') (f : FrameId) (span span' : Span)
    (es : List Value) :
    Deepens Alike (Form.evalSequence (eval fuel) f span es)
      (Form.evalSequence (eval fuel') f span' es) := by
  induction es with
  | nil => exact deepens_pure rfl
  | cons e es ih =>
    have first := eval_deepens deeper f e
    cases es with
    | nil => exact first.mono Alike.of_eq
    | cons => exact first.andThen fun _ => ih

theorem IsForm.deepens_begin (isBegin : IsForm .sequence branch body) (deeper : fuel < fuel')
    (f : FrameId) (span : Span) :
    Deepens Alike (Form.evalSequence (eval fuel) f span body) (eval fuel' f branch) := by
  obtain ⟨fuel', rfl⟩ := Nat.exists_eq_add_of_le' (Nat.lt_of_le_of_lt fuel.zero_le deeper)
  rw [isBegin.eval_eq]
  exact deepens_evalSequence_alike (Nat.le_of_lt_succ deeper) f span branch.span body

theorem IsForm.begin_deepens (isBegin : IsForm .sequence branch body) (deeper : fuel ≤ fuel')
    (f : FrameId) (span : Span) :
    Deepens Alike (eval fuel f branch) (Form.evalSequence (eval fuel') f span body) := by
  cases fuel with
  | zero => exact fun s => .exhausted s _
  | succ fuel =>
    rw [isBegin.eval_eq]
    exact deepens_evalSequence_alike (Nat.le_of_succ_le deeper) f branch.span span body

/-- What the loop gives, the nesting gives with a depth of two more and one for each clause. -/
theorem IsChain.deepens_chain (isChain : IsChain clauses chain)
    (deeper : fuel + clauses.length + 2 ≤ fuel') (f : FrameId) (form : Value) :
    Deepens Alike (Form.evalCond (eval fuel) f form clauses) (eval fuel' f chain) := by
  induction isChain generalizing fuel' with
  | none isBegin =>
    have room : fuel < fuel' := Nat.lt_of_lt_of_le (by simp) deeper
    exact isBegin.deepens_begin room f form.span
  | @otherwise clause chain body isElse rest isBegin =>
    have room : fuel < fuel' := Nat.lt_of_lt_of_le (by simp; omega) deeper
    rw [isElse.evalCond]
    exact isBegin.deepens_begin room f form.span
  | @test clause test branch alternate chain body rest isTest isBegin _ isIf ih =>
    simp only [List.length_cons] at deeper
    obtain ⟨fuel', rfl⟩ := Nat.exists_eq_add_of_le' (Nat.le_trans (Nat.le_add_left 1 _) deeper)
    rw [isTest.evalCond, isIf.eval_eq]
    refine (eval_deepens (by omega) f test).andThen fun v => ?_
    split
    · have room : fuel < fuel' := by omega
      exact isBegin.deepens_begin room f form.span
    · exact ih (by omega)

/-- What the nesting gives, the loop gives with no more depth. -/
theorem IsChain.chain_deepens (isChain : IsChain clauses chain) (deeper : fuel ≤ fuel')
    (f : FrameId) (form : Value) :
    Deepens Alike (eval fuel f chain) (Form.evalCond (eval fuel') f form clauses) := by
  induction isChain generalizing fuel with
  | none isBegin => exact isBegin.begin_deepens deeper f form.span
  | otherwise isElse rest isBegin =>
    rw [isElse.evalCond]
    exact isBegin.begin_deepens deeper f form.span
  | @test clause test branch alternate chain body rest isTest isBegin _ isIf ih =>
    cases fuel with
    | zero => exact fun s => .exhausted s _
    | succ fuel =>
      have deeper' := Nat.le_of_succ_le deeper
      rw [isTest.evalCond, isIf.eval_eq]
      refine (eval_deepens deeper' f test).andThen fun v => ?_
      split
      · exact isBegin.begin_deepens deeper' f form.span
      · exact ih deeper'

/-- If the first has ended, so has the second, and they differ in spans at most. -/
theorem sameButSpans_of_deepens {m m' : Machine Value} (deepens : Deepens Alike m m')
    (ends : m.outcome s ≠ .error .exhausted) :
    m'.outcome s ≠ .error .exhausted ∧ SameButSpans (m.outcome s) (m'.outcome s) ∧
      m.after s = m'.after s := by
  have both := deepens s
  unfold outcome after at *
  generalize m s = r at both ends ⊢
  generalize m' s = r' at both ⊢
  cases both with
  | value s' same => exact ⟨by simp, .value same, rfl⟩
  | failed e s' => exact ⟨by simp, .failed rfl rfl, rfl⟩
  | exhausted s' r => exact absurd rfl ends

end Chains

section Selection

variable {f : FrameId} {s : Store} {test v : Value} {fuel : Nat}

/-- From a store, the tests of the clauses give false in turn, up to the last clause: that is an
`else`, or its test gives true. -/
inductive Selects (f : FrameId) : Store → List Value → Prop where
  | otherwise {s : Store} {clause : Value} {body : List Value} (isElse : IsElse clause body) :
      Selects f s [clause]
  | chosen {s : Store} {clause test v : Value} {body : List Value} {fuel : Nat}
      (isTest : IsTest clause test body) (given : (eval fuel f test).outcome s = .ok v)
      (holds : v.isTrue) : Selects f s [clause]
  | passed {s : Store} {clause test v : Value} {body clauses : List Value} {fuel : Nat}
      (isTest : IsTest clause test body) (given : (eval fuel f test).outcome s = .ok v)
      (fails : ¬ v.isTrue) (others : Selects f ((eval fuel f test).after s) clauses) :
      Selects f s (clause :: clauses)

/-- A test gives a value with some depth. With whatever depth it is evaluated, two ways to go on are
one if they do the same from there. -/
theorem bind_eq_of_given {next next' : Value → Machine Value}
    (given : (eval fuel f test).outcome s = .ok v)
    (rest : next v ((eval fuel f test).after s) = next' v ((eval fuel f test).after s))
    (fuel' : Nat) : (eval fuel' f test >>= next) s = (eval fuel' f test >>= next') s := by
  refine bind_congr_after fun v' given' => ?_
  have same : eval fuel' f test s = eval fuel f test s :=
    eval_eq_of_ends (by simp [given']) (by simp [given])
  simp only [outcome, after, same] at given given' rest ⊢
  obtain rfl : v' = v := Except.ok.inj (given'.symm.trans given)
  exact rest

theorem evalSequence_span {ev : Evaluator} {es : List Value} (nonempty : es ≠ []) (f : FrameId)
    (span span' : Span) : Form.evalSequence ev f span es = Form.evalSequence ev f span' es := by
  induction es with
  | nil => contradiction
  | cons e es ih =>
    cases es with
    | nil => rfl
    | cons => simp only [Form.evalSequence, ih (List.cons_ne_nil _ _)]

/-- What stands after the clause selected is not looked at. -/
theorem evalCond_eq_of_selects {kept : List Value} (selects : Selects f s kept)
    (form form' : Value) (rest rest' : List Value) (fuel : Nat) :
    Form.evalCond (eval fuel) f form (kept ++ rest) s =
      Form.evalCond (eval fuel) f form' (kept ++ rest') s := by
  induction selects with
  | otherwise isElse =>
    have ⟨_, _, _, nonempty⟩ := isElse
    rw [List.singleton_append, List.singleton_append, isElse.evalCond, isElse.evalCond,
      evalSequence_span nonempty]
  | chosen isTest given holds =>
    rw [List.singleton_append, List.singleton_append, isTest.evalCond, isTest.evalCond]
    refine bind_eq_of_given given ?_ fuel
    rw [if_pos holds, if_pos holds, evalSequence_span isTest.2.2]
  | passed isTest given fails _ ih =>
    rw [List.cons_append, List.cons_append, isTest.evalCond, isTest.evalCond]
    refine bind_eq_of_given given ?_ fuel
    rw [if_neg fails, if_neg fails, ih]

end Selection

/-- A `cond` whose clauses have the two shapes, up to the first `else`, is evaluated in a frame of a
store. There is a chain of `if`s that says the same, and whichever is taken, it ends with some depth
just if the `cond` does; whenever both have ended they have given the same value or error, spans
aside, and left the same store. The clauses after the one selected can be replaced by anything
without changing how the `cond` ends, or whether it does. -/
theorem eval_cond_as_ifs {form : Value} {clauses : List Value} (f : FrameId) (s : Store)
    (isCond : IsForm .cond form clauses) (shaped : Shaped clauses) :
    (∃ chain, IsChain clauses chain) ∧
    (∀ chain, IsChain clauses chain →
      ((∃ fuel, (eval fuel f form).outcome s ≠ .error .exhausted) ↔
        ∃ fuel, (eval fuel f chain).outcome s ≠ .error .exhausted) ∧
      ∀ fuel fuel', (eval fuel f form).outcome s ≠ .error .exhausted →
        (eval fuel' f chain).outcome s ≠ .error .exhausted →
        SameButSpans ((eval fuel f form).outcome s) ((eval fuel' f chain).outcome s) ∧
        (eval fuel f form).after s = (eval fuel' f chain).after s) ∧
    ∀ kept rest, clauses = kept ++ rest → Selects f s kept →
      ∀ form' rest', IsForm .cond form' (kept ++ rest') →
        ∀ fuel, eval fuel f form' s = eval fuel f form s := by
  refine ⟨shaped.exists_isChain, fun chain isChain => ?_, ?_⟩
  · have loopEnds (fuel : Nat) (ends : (eval fuel f form).outcome s ≠ .error .exhausted) :
        ∃ fuel', (eval fuel' f chain).outcome s ≠ .error .exhausted ∧
          SameButSpans ((eval fuel f form).outcome s) ((eval fuel' f chain).outcome s) ∧
          (eval fuel f form).after s = (eval fuel' f chain).after s := by
      cases fuel with
      | zero => exact absurd rfl ends
      | succ fuel =>
        rw [isCond.eval_eq] at ends ⊢
        exact ⟨_, sameButSpans_of_deepens (isChain.deepens_chain le_rfl f form) ends⟩
    have chainEnds (fuel : Nat) (ends : (eval fuel f chain).outcome s ≠ .error .exhausted) :
        ∃ fuel', (eval fuel' f form).outcome s ≠ .error .exhausted := by
      refine ⟨fuel + 1, ?_⟩
      rw [isCond.eval_eq]
      exact (sameButSpans_of_deepens (isChain.chain_deepens le_rfl f form) ends).1
    refine ⟨⟨fun ⟨fuel, ends⟩ => ?_, fun ⟨fuel, ends⟩ => chainEnds fuel ends⟩, ?_⟩
    · obtain ⟨fuel', ends', -⟩ := loopEnds fuel ends
      exact ⟨fuel', ends'⟩
    · intro fuel fuel' ends ends'
      obtain ⟨deep, endsDeep, same, store⟩ := loopEnds fuel ends
      have chainSame := eval_eq_of_ends endsDeep ends'
      simp only [outcome, after] at same store ⊢
      rw [← chainSame]
      exact ⟨same, store⟩
  · rintro kept rest rfl selects form' rest' isCond' fuel
    cases fuel with
    | zero => rfl
    | succ fuel =>
      rw [isCond.eval_eq, isCond'.eval_eq]
      exact evalCond_eq_of_selects selects form' form rest' rest fuel

/-- The first clause fails, the test of the second assigns `x` and so is true, and the last is no
clause at all. The chain of `if`s assigns `x` as well, and an improper clause in the place of the
last two changes nothing. -/
theorem eval_cond_as_ifs_past_malformed :
    let word (name : String) : Value := .atom default (.symbol name)
    let form (parts : List Value) : Value := (Store.empty.addList (.nil default) parts).1
    let no : Value := .boolean default false
    let five : Value := .number default 5
    let set := form [word "set!", word "x", five]
    let first := form [no, word "y"]
    let second := form [set, word "x"]
    let clauses := [first, second, form [word "else", word "y"], five]
    let cond := form (word "cond" :: clauses)
    let cond' := form [word "cond", first, second, .pair default 0 five five]
    let chain := form [word "if", no, form [word "begin", word "y"],
      form [word "if", set, form [word "begin", word "x"], form [word "begin", word "y"]]]
    let s : Store := ⟨#[⟨none, [("x", no)]⟩], #[], 0⟩
    IsForm .cond cond clauses ∧ Shaped clauses ∧ IsChain clauses chain ∧
    Selects 0 s [first, second] ∧ (eval 3 0 cond).outcome s = .ok five ∧
    (eval 9 0 chain).outcome s = .ok five ∧
    (eval 3 0 cond).after s = (eval 9 0 chain).after s ∧ eval 3 0 cond' s = eval 3 0 cond s := by
  intro word form no five set first second clauses cond cond' chain s
  have isCond : IsForm .cond cond clauses := ⟨word "cond", rfl, rfl⟩
  have isFirst : IsTest first no [word "y"] := ⟨rfl, by decide, by decide⟩
  have isSecond : IsTest second set [word "x"] := ⟨rfl, by decide, by decide⟩
  have isElse : IsElse (form [word "else", word "y"]) [word "y"] :=
    ⟨word "else", rfl, rfl, by decide⟩
  have shaped : Shaped clauses := .test isFirst (.test isSecond (.otherwise isElse [five]))
  have isBegin (e : Value) : IsForm .sequence (form [word "begin", e]) [e] :=
    ⟨word "begin", rfl, rfl⟩
  have isIf (t a b : Value) : IsForm .conditional (form [word "if", t, a, b]) [t, a, b] :=
    ⟨word "if", rfl, rfl⟩
  have isChain : IsChain clauses chain :=
    .test isFirst (isBegin _) (.test isSecond (isBegin _)
      (.otherwise isElse [five] (isBegin _)) (isIf _ _ _)) (isIf _ _ _)
  have fails : (eval 1 0 no).outcome s = .ok no := rfl
  have holds : (eval 2 0 set).outcome s = .ok (.unspecified default) := by decide +kernel
  have selects : Selects 0 s [first, second] :=
    .passed isFirst fails (by decide) (.chosen isSecond holds (by decide))
  have value : (eval 3 0 cond).outcome s = .ok five := by decide +kernel
  have value' : (eval 9 0 chain).outcome s = .ok five := by decide +kernel
  obtain ⟨-, chains, replaced⟩ := eval_cond_as_ifs 0 s isCond shaped
  refine ⟨isCond, shaped, isChain, selects, value, value', ?_, ?_⟩
  · exact ((chains chain isChain).2 3 9 (by simp [value]) (by simp [value'])).2
  · exact replaced [first, second] _ rfl selects cond' _ ⟨word "cond", rfl, rfl⟩ 3

end MiniScheme
