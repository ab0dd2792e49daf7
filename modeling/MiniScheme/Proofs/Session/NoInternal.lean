import MiniScheme.Proofs.Eval.CodeOnly

/-!
# No session fails internally

A session begins with a store without closures, and every datum it is given becomes code. So the
invariant of `MiniScheme.Proofs.Eval.CodeOnly` holds in every session that source texts can lead to,
after errors too, whatever the limits on reading and evaluating.
-/
namespace MiniScheme.Session
open CodeOnly

/-- The sessions that begin fresh and are handed texts. Those between two data of one text, after
the evaluation of the first, are among them. -/
inductive Reached (maxDepth fuel : Nat) : Session → Prop where
  | fresh : Reached maxDepth fuel { fresh maxDepth with fuel }
  | run {s : Session} (source : String) (before : Reached maxDepth fuel s) :
      Reached maxDepth fuel (s.run source).session
  | evalText {s : Session} (source : String) (before : Reached maxDepth fuel s) :
      Reached maxDepth fuel (s.evalText source).2
  | evalDatum {s : Session} (d : Datum) (before : Reached maxDepth fuel s) :
      Reached maxDepth fuel (s.evalDatum d).2

/-- What every datum that was read keeps is kept by running them all. -/
theorem runRead_keeps {P : Session → Prop} {readings : List (Except ReadError Datum)}
    (each : ∀ s d, .ok d ∈ readings → P s → P (s.evalDatum d).2) {s : Session} (begins : P s) :
    P (s.runRead readings).session := by
  induction readings generalizing s with
  | nil => exact begins
  | cons reading rest ih =>
    have later {t : Session} (kept : P t) : P (t.runRead rest).session :=
      ih (fun s d member => each s d (List.mem_cons_of_mem reading member)) kept
    cases reading with
    | error e => exact begins
    | ok d =>
      have first := each s d List.mem_cons_self begins
      unfold runRead
      cases result : s.evalDatum d with
      | mk outcome t =>
        rw [result] at first
        split
        · next same => cases same; exact later first
        · next same => cases same; exact first
        · next same => cases same; exact later first
        · next same => cases same; exact first

/-- What every datum that was read keeps is kept by evaluating them up to an error. -/
theorem evalRead_keeps {P : Session → Prop} {readings : List (Except ReadError Datum)}
    (each : ∀ s d, .ok d ∈ readings → P s → P (s.evalDatum d).2) {s : Session} (last : Value)
    (begins : P s) : P (s.evalRead last readings).2 := by
  induction readings generalizing s last with
  | nil => exact begins
  | cons reading rest ih =>
    have later {t : Session} (v : Value) (kept : P t) : P (t.evalRead v rest).2 :=
      ih (fun s d member => each s d (List.mem_cons_of_mem reading member)) v kept
    cases reading with
    | error e => exact begins
    | ok d =>
      have first := each s d List.mem_cons_self begins
      unfold evalRead
      cases result : s.evalDatum d with
      | mk outcome t =>
        rw [result] at first
        split
        · next same => cases same; exact later _ first
        · next same => cases same; exact first
        · next same => cases same; exact first
        · next same => cases same; exact first

theorem isCode_ofDatum (next : CellId) (d : Datum) : (Value.ofDatum next d).1.isCode := by
  induction d generalizing next with
  | atom => rfl
  | nil => rfl
  | leaf span e => exact e.elim
  | pair span mark car cdr ihCar ihCdr =>
    simp only [Value.ofDatum, Value.isCode, Bool.and_eq_true]
    exact ⟨ihCar _, ihCdr _⟩

/-- A datum is evaluated as if every evaluation in it were watched, and nothing is found. -/
theorem agrees_load (s : Session) (d : Datum) :
    Agrees (eval s.fuel globalFrame (s.store.load d).1)
      (evalWatched s.fuel globalFrame (s.store.load d).1) :=
  agrees_eval s.fuel globalFrame _ (isCode_ofDatum s.store.nextCell d)

theorem safe_evalDatum {s : Session} (codeOnly : s.store.isCodeOnly) (d : Datum) :
    (s.evalDatum d).2.store.isCodeOnly ∧
      ∀ v, (s.evalDatum d).1 ≠ .error (.failed (.notCode v)) := by
  have loaded := Store.isCodeOnly_of_closures_eq (s.store.load_closures d) codeOnly
  obtain ⟨-, safe⟩ := agrees_load s d _ loaded
  simp only [evalDatum, evalValue]
  cases result : eval s.fuel globalFrame (s.store.load d).1 (s.store.load d).2 with
  | ok v store =>
    rw [result] at safe
    exact ⟨safe, fun v' error => nomatch error⟩
  | error stop store =>
    rw [result] at safe
    cases stop with
    | exhausted => exact ⟨safe, fun v error => nomatch error⟩
    | failed e =>
      refine ⟨safe.1, ?_⟩
      intro v error
      cases error
      cases safe.2

/-- A run in which nothing failed internally and after which the store holds only code. -/
structure SafeRun (r : Run) : Prop where
  codeOnly : r.session.store.isCodeOnly
  results : ∀ v, .error (.notCode v) ∉ r.results
  stopped : ∀ m, r.stopped ≠ some (.internal m)

theorem SafeRun.cons {r : Run} {x : Except EvalError Value} (safe : SafeRun r)
    (external : ∀ v, x ≠ .error (.notCode v)) : SafeRun { r with results := x :: r.results } := by
  refine ⟨safe.codeOnly, ?_, safe.stopped⟩
  intro v member
  rcases List.mem_cons.mp member with same | member'
  · exact external v same.symm
  · exact safe.results v member'

theorem safeRun_stop {s : Session} {stopped : Option RunError} (codeOnly : s.store.isCodeOnly)
    (external : ∀ m, stopped ≠ some (.internal m)) : SafeRun ⟨[], stopped, s⟩ :=
  ⟨codeOnly, by simp, external⟩

theorem safe_runRead {s : Session} (codeOnly : s.store.isCodeOnly)
    (readings : List (Except ReadError Datum)) : SafeRun (s.runRead readings) := by
  induction readings generalizing s with
  | nil => exact safeRun_stop codeOnly (by simp)
  | cons reading rest ih =>
    cases reading with
    | error e => exact safeRun_stop codeOnly (by simp)
    | ok d =>
      obtain ⟨codeOnly', external⟩ := safe_evalDatum codeOnly d
      unfold runRead
      split
      · next v s' result =>
        rw [result] at codeOnly'
        exact (ih codeOnly').cons (by simp)
      · next v s' result =>
        rw [result] at external
        exact absurd rfl (external v)
      · next e s' notCode result =>
        rw [result] at codeOnly'
        refine (ih codeOnly').cons ?_
        rintro v same
        cases same
        exact notCode v rfl
      · next s' result =>
        rw [result] at codeOnly'
        exact safeRun_stop codeOnly' (by simp)

theorem safe_evalRead {s : Session} (codeOnly : s.store.isCodeOnly) (last : Value)
    (readings : List (Except ReadError Datum)) :
    (s.evalRead last readings).2.store.isCodeOnly ∧
    (∀ v, (s.evalRead last readings).1 ≠ .error (.eval (.notCode v))) ∧
    ∀ m, (s.evalRead last readings).1 ≠ .error (.internal m) := by
  induction readings generalizing s last with
  | nil => exact ⟨codeOnly, by simp [evalRead], by simp [evalRead]⟩
  | cons reading rest ih =>
    cases reading with
    | error e => exact ⟨codeOnly, by simp [evalRead], by simp [evalRead]⟩
    | ok d =>
      obtain ⟨codeOnly', external⟩ := safe_evalDatum codeOnly d
      unfold evalRead
      split
      · next v s' result =>
        rw [result] at codeOnly'
        exact ih codeOnly' v
      · next v s' result =>
        rw [result] at external
        exact absurd rfl (external v)
      · next e s' notCode result =>
        rw [result] at codeOnly'
        refine ⟨codeOnly', ?_, by simp⟩
        intro v same
        cases same
        exact notCode v rfl
      · next s' result =>
        rw [result] at codeOnly'
        exact ⟨codeOnly', by simp, by simp⟩

theorem Reached.codeOnly {maxDepth fuel : Nat} {s : Session} (reached : Reached maxDepth fuel s) :
    s.store.isCodeOnly := by
  induction reached with
  | fresh => simp [Store.isCodeOnly, Session.fresh, Store.empty, Store.addGlobal, Store.addFrame]
  | run source before ih => exact (safe_runRead ih _).codeOnly
  | evalText source before ih => exact (safe_evalRead ih _ _).1
  | evalDatum d before ih => exact (safe_evalDatum ih d).1

/-- In every session reached, the store holds only code, each datum is evaluated as code, with every
nested evaluation watched, and neither running nor evaluating a text fails internally. -/
theorem reached_never_internal (maxDepth fuel : Nat) (s : Session)
    (reached : Reached maxDepth fuel s) :
    s.store.isCodeOnly ∧
    (∀ d, (s.store.load d).1.isCode ∧
      eval s.fuel globalFrame (s.store.load d).1 (s.store.load d).2 =
        evalWatched s.fuel globalFrame (s.store.load d).1 (s.store.load d).2 ∧
      ∀ v, (s.evalDatum d).1 ≠ .error (.failed (.notCode v))) ∧
    (∀ source, (∀ v, .error (.notCode v) ∉ (s.run source).results) ∧
      ∀ m, (s.run source).stopped ≠ some (.internal m)) ∧
    ∀ source, (∀ v, (s.evalText source).1 ≠ .error (.eval (.notCode v))) ∧
      ∀ m, (s.evalText source).1 ≠ .error (.internal m) := by
  have codeOnly := reached.codeOnly
  refine ⟨codeOnly, ?_, ?_, ?_⟩
  · intro d
    have loaded := Store.isCodeOnly_of_closures_eq (s.store.load_closures d) codeOnly
    exact ⟨isCode_ofDatum _ d, (agrees_load s d _ loaded).1, (safe_evalDatum codeOnly d).2⟩
  · intro source
    have safe := safe_runRead codeOnly (Reader.readAll s.maxDepth (scan source))
    exact ⟨safe.results, safe.stopped⟩
  · intro source
    exact (safe_evalRead codeOnly _ (Reader.readAll s.maxDepth (scan source))).2

/-- A procedure ends up in a pair bound to `f`, and calling that pair fails, but not internally. -/
theorem reached_never_internal_after_calls :
    let s := ((fresh 3).run "(define (f . x) (cons car x)) (set! f (f 'f)) (f)").session
    Reached 3 defaultFuel s ∧ s.store.isCodeOnly ∧
      ∀ m, (s.run "((cdr f))").stopped ≠ some (.internal m) := by
  have reached : Reached 3 defaultFuel _ :=
    .run "(define (f . x) (cons car x)) (set! f (f 'f)) (f)" .fresh
  obtain ⟨codeOnly, -, runs, -⟩ := reached_never_internal 3 defaultFuel _ reached
  exact ⟨reached, codeOnly, (runs "((cdr f))").2⟩

end MiniScheme.Session
