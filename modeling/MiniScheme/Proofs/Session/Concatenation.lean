import MiniScheme.Proofs.Datum.Places
import MiniScheme.Proofs.Eval.Spans
import MiniScheme.Proofs.Session.Drivers
import MiniScheme.Proofs.Session.NoInternal

/-!
# Texts run one after another are as good as one text

Running a text and then another in the session it has left gives the results, the end and the
session that one run of both texts gives, with a newline between them, places aside. Reading splits
at the newline (`Reader.readAll_join`). The data of the second text then stand elsewhere, but
evaluation does not see where (`eval_erase`), nor where the closures were read that the first text
has left for the second to call.
-/
namespace MiniScheme

def RunError.erase : RunError → RunError
  | .read e => .read e.erase
  | .eval e => .eval e.erase
  | .internal message => .internal message
  | .exhausted => .exhausted

def Session.erase (s : Session) : Session := { s with store := s.store.erase }

/-- The same run, with all places forgotten in its results, in its end and in what is bound. -/
def Run.erase (r : Run) : Run :=
  ⟨r.results.map (EvalError.eraseIn Sexpr.erase), r.stopped.map RunError.erase, r.session.erase⟩

/-- A run, and another source text in the session it has left. -/
def Run.andThen (r : Run) (source : String) : Run :=
  let next := r.session.run source
  ⟨r.results ++ next.results, next.stopped, next.session⟩

theorem Value.ofDatum_erase (next : CellId) (d : Datum) :
    ofDatum next d.erase = ((ofDatum next d).1.erase, (ofDatum next d).2) := by
  induction d generalizing next with
  | pair span mark car cdr ihCar ihCdr =>
    simp only [Sexpr.erase, ofDatum, ihCar, ihCdr]
  | leaf span e => exact e.elim
  | _ => rfl

theorem Store.load_erase (s : Store) (d : Datum) :
    s.erase.load d.erase = ((s.load d).1.erase, (s.load d).2.erase) := by
  unfold load
  rw [Value.ofDatum_erase]
  rfl

namespace Session

/-- A datum is evaluated the same without places, in a session without places. -/
theorem evalDatum_erase (s : Session) (d : Datum) :
    s.erase.evalDatum d.erase =
      (((s.evalDatum d).1.mapError Stop.erase).map Sexpr.erase, (s.evalDatum d).2.erase) := by
  have mirrored := eval_erase s.fuel globalFrame (s.store.load d).1 (s.store.load d).2
  have loaded := s.store.load_erase d
  unfold evalDatum evalValue
  dsimp only [erase]
  rw [loaded]
  dsimp only
  rw [mirrored]
  cases eval s.fuel globalFrame (s.store.load d).1 (s.store.load d).2 <;> rfl

theorem Settles.erase {s s' : Session} {d : Datum} {result : Except EvalError Value}
    (settles : Settles s d result s') :
    Settles s.erase d.erase (EvalError.eraseIn Sexpr.erase result) s'.erase := by
  constructor
  · rw [evalDatum_erase, settles.ends]
    cases result <;> rfl
  · intro v same
    cases result with
    | ok => cases same
    | error e =>
      cases e with
      | notCode w => exact settles.external w rfl
      | _ => cases same

/-- Forgetting places commutes with running what was read. -/
theorem runRead_erase (s : Session) (readings : List (Except ReadError Datum)) :
    s.erase.runRead (readings.map (ReadError.eraseIn Sexpr.erase)) =
      (s.runRead readings).erase := by
  induction readings generalizing s with
  | nil => rfl
  | cons reading rest ih =>
    cases reading with
    | error e => rfl
    | ok d =>
      rw [List.map_cons, ReadError.eraseIn]
      have erased := evalDatum_erase s d
      obtain ⟨result, s', settles⟩ | ⟨v, s', internal⟩ | ⟨s', exhausted⟩ := evalDatum_cases s d
      · rw [runRead_of_settles settles, runRead_of_settles settles.erase, ih]
        rfl
      · rw [internal] at erased
        rw [runRead, runRead, erased, internal]
        exact congrArg (fun message => Run.mk [] (some (.internal message)) s'.erase)
          (EvalError.notCodeMessage_erase v)
      · rw [exhausted] at erased
        rw [runRead, runRead, erased, exhausted]
        rfl

section Runs

variable {s : Session} {readings : List (Except ReadError Datum)}

theorem evalDatum_maxDepth (s : Session) (d : Datum) :
    (s.evalDatum d).2.maxDepth = s.maxDepth := by
  simp only [evalDatum, evalValue]
  split <;> rfl

/-- A run leaves the limit on nesting as it was. -/
theorem runRead_maxDepth (s : Session) (readings : List (Except ReadError Datum)) :
    (s.runRead readings).session.maxDepth = s.maxDepth := by
  induction readings generalizing s with
  | nil => rfl
  | cons reading rest ih =>
    cases reading with
    | error e => rfl
    | ok d =>
      have kept := evalDatum_maxDepth s d
      obtain ⟨result, s', settles⟩ | ⟨v, s', internal⟩ | ⟨s', exhausted⟩ := evalDatum_cases s d
      · rw [settles.ends] at kept
        rw [runRead_of_settles settles]
        exact (ih s').trans kept
      · rw [internal] at kept
        rw [runRead, internal]
        exact kept
      · rw [exhausted] at kept
        rw [runRead, exhausted]
        exact kept

/-- What follows is run in the session left, if nothing stops the run before. -/
theorem runRead_append (whole : (s.runRead readings).stopped = none)
    (more : List (Except ReadError Datum)) :
    s.runRead (readings ++ more) =
      let front := s.runRead readings
      let back := front.session.runRead more
      ⟨front.results ++ back.results, back.stopped, back.session⟩ := by
  induction readings generalizing s with
  | nil => rfl
  | cons reading rest ih =>
    cases reading with
    | error e => cases whole
    | ok d =>
      obtain ⟨result, s', settles⟩ | ⟨v, s', internal⟩ | ⟨s', exhausted⟩ := evalDatum_cases s d
      · rw [runRead_of_settles settles] at whole
        rw [List.cons_append, runRead_of_settles settles, runRead_of_settles settles, ih whole]
        rfl
      · rw [runRead, internal] at whole
        cases whole
      · rw [runRead, exhausted] at whole
        cases whole

/-- What was read without error is run to its end, unless an evaluation runs out or fails
internally. -/
theorem runRead_stopped {why : RunError} (clean : ∀ e, .error e ∉ readings)
    (stopped : (s.runRead readings).stopped = some why) :
    why = .exhausted ∨ ∃ message, why = .internal message := by
  induction readings generalizing s with
  | nil => cases stopped
  | cons reading rest ih =>
    cases reading with
    | error e => exact absurd List.mem_cons_self (clean e)
    | ok d =>
      obtain ⟨result, s', settles⟩ | ⟨v, s', internal⟩ | ⟨s', exhausted⟩ := evalDatum_cases s d
      · rw [runRead_of_settles settles] at stopped
        exact ih (fun e member => clean e (List.mem_cons_of_mem _ member)) stopped
      · rw [runRead, internal] at stopped
        cases stopped
        exact .inr ⟨_, rfl⟩
      · rw [runRead, exhausted] at stopped
        cases stopped
        exact .inl rfl

end Runs

/-- In a session that texts have led to, let a text be read without error and its evaluations end,
be it with errors. Then it is run to its end, and running another text after it is the same as
running both as one text, with a newline between them: results, end and bindings, places aside. -/
theorem run_joined {maxDepth fuel : Nat} {s : Session} (reached : Reached maxDepth fuel s)
    (first second : String) (reads : ∀ e, .error e ∉ Reader.readAll s.maxDepth (scan first))
    (ends : (s.run first).stopped ≠ some .exhausted) :
    (s.run first).stopped = none ∧
      (s.run (first ++ "\n" ++ second)).erase = ((s.run first).andThen second).erase := by
  have whole : (s.run first).stopped = none := by
    -- only here does it matter how the session came about: it cannot fail internally
    cases stopped : (s.run first).stopped with
    | none => rfl
    | some why =>
      obtain rfl | ⟨message, rfl⟩ := runRead_stopped reads stopped
      · exact absurd stopped ends
      · exact absurd stopped ((safe_runRead reached.codeOnly _).stopped message)
  refine ⟨whole, ?_⟩
  have later : (s.run first).session.run second =
      (s.run first).session.runRead (Reader.readAll s.maxDepth (scan second)) :=
    congrArg (fun limit => runRead _ (Reader.readAll limit (scan second))) (runRead_maxDepth s _)
  calc (s.run (first ++ "\n" ++ second)).erase
      = s.erase.runRead ((Reader.readAll s.maxDepth (scan (first ++ "\n" ++ second))).map
          (ReadError.eraseIn Sexpr.erase)) := (runRead_erase s _).symm
    _ = (s.runRead (Reader.readAll s.maxDepth (scan first) ++
          Reader.readAll s.maxDepth (scan second))).erase := by
        rw [Reader.readAll_join reads, runRead_erase]
    _ = ((s.run first).andThen second).erase := by
        rw [runRead_append whole, Run.andThen, later]
        rfl

set_option maxRecDepth 1000 in
/-- A text that ends in a comment defines a procedure, which the next text calls, to fail, before it
breaks off. As one text the comment ends with its line. -/
theorem run_joined_after_comment :
    let s : Session := { fresh 2 with fuel := 9 }
    let first := "(define (f) x);f"
    Reached 2 9 s ∧ (s.run first).stopped = none ∧
      (s.run (first ++ "\n" ++ "(f) (")).erase = ((s.run first).andThen "(f) (").erase := by
  intro s first
  have reached : Reached 2 9 s := .fresh
  have ends : (s.run first).stopped = none := by cbv
  have reads : ∀ e, .error e ∉ Reader.readAll s.maxDepth (scan first) := by
    have data : (Reader.readAll 2 (scan first)).all Except.isOk = true := by cbv
    intro e member
    cases List.all_eq_true.mp data _ member
  exact ⟨reached, run_joined reached first "(f) (" reads (by simp [ends])⟩

end Session
end MiniScheme
