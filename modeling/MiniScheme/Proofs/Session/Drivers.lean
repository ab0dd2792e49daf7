import Mathlib
import MiniScheme.Proofs.Datum.Acceptance
import MiniScheme.Session

/-!
# The drivers agree with the reader and with each other

A reader that is asked until it gives nothing yields data and at most one error, the last it yields
(`Reader.drain`). Running a text evaluates these data in turn, each in the session that the one
before has left, and goes on after a failed evaluation; evaluating a text does the same up to the
first failure. Where nothing fails the two leave the same session.

`InTurn` says what evaluating in turn is, without either driver: every evaluation ends, and none
with an internal error.
-/
namespace MiniScheme

namespace Reader

/-- A reader that has not failed gives what is read of its items, and fails with an error. -/
theorem nextUnlessFailed_cons (limit : Nat) (item : Item) (rest : List Item) :
    nextUnlessFailed ⟨limit, item :: rest, false⟩ =
      match (read limit (item :: rest)).1 with
      | .error e => (some (.error e), ⟨limit, (read limit (item :: rest)).2, true⟩)
      | .ok d => (some (.ok d), ⟨limit, (read limit (item :: rest)).2, false⟩) := by
  unfold nextUnlessFailed
  rw [next_of_nonempty _ (List.cons_ne_nil item rest)]
  cases (read limit (item :: rest)).1 <;> rfl

/-- Whatever a reader gives, it has consumed something for it. -/
theorem length_nextUnlessFailed {r r' : Reader} {result : Except ReadError Datum}
    (given : r.nextUnlessFailed = (some result, r')) : r'.items.length < r.items.length := by
  obtain ⟨limit, items, failed⟩ := r
  cases failed with
  | true => cases given
  | false =>
    cases items with
    | nil => cases given
    | cons item rest =>
      have shorter := length_read_cons limit item rest
      rw [nextUnlessFailed_cons] at given
      cases outcome : (read limit (item :: rest)).1 with
      | error e =>
        rw [outcome] at given
        cases given
        exact shorter
      | ok d =>
        rw [outcome] at given
        cases given
        exact shorter

/-- All that a reader gives until it gives nothing. -/
def drain (r : Reader) : List (Except ReadError Datum) :=
  match _given : r.nextUnlessFailed with
  | (none, _) => []
  | (some result, r') => result :: r'.drain
termination_by r.items.length
decreasing_by exact length_nextUnlessFailed _given

theorem drain_of_none {r r' : Reader} (given : r.nextUnlessFailed = (none, r')) :
    r.drain = [] := by
  rw [drain]
  split
  · rfl
  · next given' =>
    rw [given] at given'
    cases given'

theorem drain_of_some {r r' : Reader} {result : Except ReadError Datum}
    (given : r.nextUnlessFailed = (some result, r')) : r.drain = result :: r'.drain := by
  rw [drain]
  split
  · next given' =>
    rw [given] at given'
    cases given'
  · next given' =>
    rw [given] at given'
    cases given'
    rfl

/-- A reader yields what can be read of its items, up to the first error. -/
theorem drain_eq_readAll (limit : Nat) (items : List Item) :
    drain ⟨limit, items, false⟩ = readAll limit items := by
  fun_induction readAll limit items with
  | case1 => exact drain_of_none rfl
  | case2 item rest result e failed =>
    have given := nextUnlessFailed_cons limit item rest
    rw [failed] at given
    rw [drain_of_some given, drain_of_none rfl]
  | case3 item rest result d success ih =>
    have given := nextUnlessFailed_cons limit item rest
    rw [success] at given
    rw [drain_of_some given, ih]

/-- What is read of some items: data, and an error after them or none. -/
theorem exists_data (limit : Nat) (items : List Item) :
    ∃ (data : List Datum) (fault : Option ReadError),
      readAll limit items = data.map .ok ++ (fault.map .error).toList := by
  fun_induction readAll limit items with
  | case1 => exact ⟨[], none, rfl⟩
  | case2 item rest result e failed => exact ⟨[], some e, rfl⟩
  | case3 item rest result d success ih =>
    obtain ⟨data, fault, shape⟩ := ih
    exact ⟨d :: data, fault, by rw [shape]; rfl⟩

end Reader

namespace Session

/-- The evaluation of a datum ends, with a result that is no internal error. -/
structure Settles (s : Session) (d : Datum) (result : Except EvalError Value) (s' : Session) :
    Prop where
  ends : s.evalDatum d = (result.mapError .failed, s')
  external : ∀ v, result ≠ .error (.notCode v)

/-- Data evaluated one after another, each in the session that the one before has left. -/
inductive InTurn : Session → List Datum → List (Except EvalError Value) → Session → Prop where
  | done (s : Session) : InTurn s [] [] s
  | step {s s₁ s₂ : Session} {d : Datum} {data : List Datum} {result : Except EvalError Value}
      {results : List (Except EvalError Value)} (first : Settles s d result s₁)
      (rest : InTurn s₁ data results s₂) : InTurn s (d :: data) (result :: results) s₂

/-- The evaluation of a datum is settled, or it fails internally, or it runs out. -/
theorem evalDatum_cases (s : Session) (d : Datum) :
    (∃ result s', Settles s d result s') ∨
      (∃ v s', s.evalDatum d = (.error (.failed (.notCode v)), s')) ∨
      ∃ s', s.evalDatum d = (.error .exhausted, s') := by
  cases evaluated : s.evalDatum d with
  | mk outcome s' =>
    cases outcome with
    | ok v => exact .inl ⟨.ok v, s', evaluated, by simp⟩
    | error why =>
      cases why with
      | exhausted => exact .inr (.inr ⟨s', rfl⟩)
      | failed e =>
        by_cases internal : ∃ v, e = .notCode v
        · obtain ⟨v, rfl⟩ := internal
          exact .inr (.inl ⟨v, s', rfl⟩)
        · refine .inl ⟨.error e, s', evaluated, ?_⟩
          intro v same
          exact internal ⟨v, Except.error.inj same⟩

section Steps

variable {s s' : Session} {d : Datum} {data : List Datum}

theorem runRead_of_settles {result : Except EvalError Value} (settles : Settles s d result s')
    (rest : List (Except ReadError Datum)) :
    s.runRead (.ok d :: rest) =
      { s'.runRead rest with results := result :: (s'.runRead rest).results } := by
  rw [runRead, settles.ends]
  cases result with
  | ok v => rfl
  | error e =>
    cases e with
    | notCode v => exact absurd rfl (settles.external v)
    | _ => rfl

theorem evalRead_of_settles_ok {v : Value} (settles : Settles s d (.ok v) s') (last : Value)
    (rest : List (Except ReadError Datum)) :
    s.evalRead last (.ok d :: rest) = s'.evalRead v rest := by
  rw [evalRead, settles.ends]
  rfl

theorem evalRead_of_settles_error {e : EvalError} (settles : Settles s d (.error e) s')
    (last : Value) (rest : List (Except ReadError Datum)) :
    s.evalRead last (.ok d :: rest) = (.error (.eval e), s') := by
  rw [evalRead, settles.ends]
  cases e with
  | notCode v => exact absurd rfl (settles.external v)
  | _ => rfl

/-- Running what was read goes through all data, with their results in order. -/
theorem InTurn.runRead {results : List (Except EvalError Value)} (turn : InTurn s data results s')
    (rest : List (Except ReadError Datum)) :
    s.runRead (data.map .ok ++ rest) =
      { s'.runRead rest with results := results ++ (s'.runRead rest).results } := by
  induction turn with
  | done s => rfl
  | step first later ih =>
    rw [List.map_cons, List.cons_append, runRead_of_settles first, ih]
    rfl

/-- Evaluating what was read goes through data that do not fail, and keeps the last value. -/
theorem InTurn.evalRead {values : List Value} (turn : InTurn s data (values.map .ok) s')
    (last : Value) (rest : List (Except ReadError Datum)) :
    s.evalRead last (data.map .ok ++ rest) = s'.evalRead (values.getLastD last) rest := by
  induction values generalizing s data last with
  | nil =>
    cases turn
    rfl
  | cons v values ih =>
    cases turn with
    | step first later =>
      rw [List.map_cons, List.cons_append, evalRead_of_settles_ok first, ih later v,
        List.getLastD_cons]

end Steps

/-- Where no result is an error, evaluating stops where running does. -/
theorem evalRead_session (s : Session) (last : Value) (readings : List (Except ReadError Datum))
    (clean : ∀ e, .error e ∉ (s.runRead readings).results) :
    (s.evalRead last readings).2 = (s.runRead readings).session := by
  induction readings generalizing s last with
  | nil => rfl
  | cons reading rest ih =>
    cases reading with
    | error e => rfl
    | ok d =>
      obtain ⟨result, s', settles⟩ | ⟨v, s', internal⟩ | ⟨s', exhausted⟩ := evalDatum_cases s d
      · rw [runRead_of_settles settles] at clean ⊢
        cases result with
        | ok v =>
          rw [evalRead_of_settles_ok settles]
          exact ih s' v fun e member => clean e (List.mem_cons_of_mem _ member)
        | error e => exact absurd List.mem_cons_self (clean e)
      · rw [evalRead, runRead, internal]
      · rw [evalRead, runRead, exhausted]

/-- What a source text yields are data and at most one error, the last of all. Running the text
gives the results of the data in turn and stops with the error, if there is one. Evaluating it ends
with the first datum that fails; if none does, with the error; if there is none, with the last
value. If running gives no failure, both leave the same session. -/
theorem drivers_agree (s : Session) (source : String) :
    ∃ (data : List Datum) (fault : Option ReadError),
      (Reader.ofSource s.maxDepth source).drain = data.map .ok ++ (fault.map .error).toList ∧
      (∀ results s', InTurn s data results s' →
        s.run source = ⟨results, fault.map .read, s'⟩) ∧
      (∀ (front back : List Datum) (d : Datum) (values : List Value) (e : EvalError)
        (middle s' : Session), data = front ++ d :: back → InTurn s front (values.map .ok) middle →
        Settles middle d (.error e) s' → s.evalText source = (.error (.eval e), s')) ∧
      (∀ (values : List Value) (s' : Session), InTurn s data (values.map .ok) s' →
        s.evalText source = (match fault with
          | some e => .error (.read e)
          | none => .ok (values.getLastD (.unspecified default)), s')) ∧
      ((∀ e, .error e ∉ (s.run source).results) →
        (s.evalText source).2 = (s.run source).session) := by
  obtain ⟨data, fault, shape⟩ := Reader.exists_data s.maxDepth (scan source)
  refine ⟨data, fault, (Reader.drain_eq_readAll _ _).trans shape, ?_, ?_, ?_, ?_⟩
  · intro results s' turn
    rw [run, shape, turn.runRead]
    cases fault with
    | none => exact congrArg (Run.mk · none s') (List.append_nil results)
    | some e => exact congrArg (Run.mk · (some (.read e)) s') (List.append_nil results)
  · rintro front back d values e middle s' rfl turn fails
    rw [evalText, shape, List.map_append, List.append_assoc, turn.evalRead, List.map_cons,
      List.cons_append, evalRead_of_settles_error fails]
  · intro values s' turn
    rw [evalText, shape, turn.evalRead]
    cases fault <;> rfl
  · exact evalRead_session s _ _

/-- A name that is bound, one that is not, and a list that is not closed: running gives a value and
a failure and stops with the reading error, evaluating stops with the failure. -/
theorem drivers_agree_past_failure :
    let s : Session := ⟨⟨#[⟨none, [("x", .boolean default true)]⟩], #[], 0⟩, 2, 9⟩
    let failure : EvalError := .unbound "y" ⟨2, 3⟩
    let fault : ReadError := .unclosed ⟨.opener .round, ⟨4, 5⟩, 1⟩ .round
    s.run "x y (" = ⟨[.ok (.boolean default true), .error failure], some (.read fault), s⟩ ∧
      s.evalText "x y (" = (.error (.eval failure), s) := by
  intro s failure fault
  let x : Datum := .atom ⟨0, 1⟩ (.symbol "x")
  let y : Datum := .atom ⟨2, 3⟩ (.symbol "y")
  have bound : Settles s x (.ok (.boolean default true)) s := ⟨by cbv, by simp⟩
  have unbound : Settles s y (.error failure) s := ⟨by cbv, by simp [failure]⟩
  obtain ⟨data, fault', yielded, runs, fails, -⟩ := drivers_agree s "x y ("
  have read : (Reader.ofSource s.maxDepth "x y (").drain = [.ok x, .ok y, .error fault] := by
    rw [Reader.ofSource, Reader.drain_eq_readAll]
    cbv
  obtain ⟨rfl, rfl⟩ : data = [x, y] ∧ fault' = some fault := by
    rw [read] at yielded
    rcases data with _ | ⟨a, _ | ⟨b, _ | ⟨c, data⟩⟩⟩ <;> cases fault' <;> simp_all
  exact ⟨runs _ s (.step bound (.step unbound (.done s))),
    fails [x] [] y [.boolean default true] failure s s rfl (.step bound (.done s)) unbound⟩

end Session
end MiniScheme
