import MiniScheme.Proofs.Datum.Extents
import MiniScheme.Proofs.Diagnostic.Place
import MiniScheme.Proofs.Eval.InStep

/-!
# What a text gives lies in the text

A fresh session knows no spans but the empty one at the start, which its primitives have. A source
text adds the spans of what is read of it, and evaluation only hands spans on and merges them. So
every node of every value that the text gives, every failure and every reading error has a span that
lies in the text, and a diagnostic of it is shown with nothing cut off.

That evaluation keeps the spans in the text is read off a correspondence of a run with itself.
-/
namespace MiniScheme

namespace Correspondence

/-- Nothing differs between the two sides, and every span lies in the text. -/
def lying (source : String) : Correspondence where
  span s s' := s = s' ∧ s.Lies source
  closure := Eq
  fits _ := True
  merge := by
    rintro a _ b _ ⟨rfl, first⟩ ⟨rfl, second⟩
    exact ⟨rfl, first.merge second⟩
  same_iff := same_iff_of_eq
  fits_of_formed _ := trivial

variable {source : String} {v v' : Value}

theorem matches_lying (spanned : v.Spanned (Span.Lies source)) : (lying source).Matches v v :=
  matches_self (fun node member => ⟨rfl, spanned node member⟩)
    (Value.within_of_forall (fun _ => rfl) v)

theorem Matches.spanned (values : (lying source).Matches v v') : v.Spanned (Span.Lies source) := by
  induction values with
  | atom a spans => simpa using spans.2
  | nil spans => simpa using spans.2
  | pair mark spans _ _ car cdr => simpa using ⟨spans.2, car, cdr⟩
  | unspecified spans => simpa using spans.2
  | primitive p spans => simpa using spans.2
  | closure name spans ids => simpa using spans.2

theorem MatchesError.lies {e e' : EvalError} (errors : (lying source).MatchesError e e') :
    e.span.Lies source := by
  cases errors with
  | unbound _ spans | arity _ _ spans | notProcedure _ spans | argument _ spans
  | emptyApplication spans => exact spans.2
  | notSymbol values | malformed _ values | notCode values => exact values.span.2

end Correspondence

theorem Value.spanned_ofDatum {P : Span → Prop} {d : Datum} (next : CellId)
    (spanned : d.Spanned P) : (ofDatum next d).1.Spanned P := by
  induction d generalizing next with
  | atom | nil => simpa [ofDatum] using spanned
  | leaf _ r => exact r.elim
  | pair s mark car cdr ihCar ihCdr =>
    rw [Sexpr.spanned_pair] at spanned
    simp only [ofDatum, Sexpr.spanned_pair]
    exact ⟨spanned.1, ihCar _ spanned.2.1, ihCdr _ spanned.2.2⟩

namespace Session

variable {source : String} {s : Session} {readings : List (Except ReadError Datum)}

/-- Every span in the store lies in the text. -/
def Lies (source : String) (s : Session) : Prop :=
  (Correspondence.lying source).MatchesStore s.store s.store

theorem lies_fresh (source : String) (maxDepth fuel : Nat) :
    Lies source { fresh maxDepth with fuel } := by
  have empty : (Correspondence.lying source).MatchesStore .empty .empty :=
    ⟨rfl, fun _ => .none, fun _ => .none, fun _ => rfl, rfl⟩
  have global : (Correspondence.lying source).MatchesFrame ⟨none, .primitives⟩
      ⟨none, .primitives⟩ := by
    refine ⟨rfl, .self fun name v bound => ?_⟩
    obtain ⟨p, rfl⟩ := Bindings.get?_primitives bound
    exact .primitive p ⟨rfl, Span.lies_default source⟩
  exact (empty.addFrame global).2

/-- All nodes of a value, or the span of an error, lie in the text. -/
def ResultLies (source : String) : Except EvalError Value → Prop
  | .ok v => v.Spanned (Span.Lies source)
  | .error e => e.span.Lies source

/-- A datum is evaluated to what lies where it and the store do. -/
theorem lies_evalDatum {d : Datum} (lies : s.Lies source) (spanned : d.Spanned (Span.Lies source)) :
    (s.evalDatum d).2.Lies source ∧
      ∀ result, (s.evalDatum d).1 = result.mapError .failed → ResultLies source result := by
  have loaded := Correspondence.matches_lying (Value.spanned_ofDatum s.store.nextCell spanned)
  have ends := Correspondence.inStep_eval s.fuel globalFrame _ _ loaded
    (lies.withNextCell (Value.ofDatum s.store.nextCell d).2)
  simp only [evalDatum, evalValue, Store.load]
  generalize eval s.fuel globalFrame _ _ = outcome at ends ⊢
  cases outcome with
  | ok v store =>
    cases ends with
    | ok values stores =>
      refine ⟨stores, ?_⟩
      rintro (e | v) ⟨⟩
      exact values.spanned
  | error why store =>
    cases ends with
    | failed errors stores =>
      refine ⟨stores, ?_⟩
      rintro (e | v) ⟨⟩
      exact errors.lies
    | exhausted stores =>
      refine ⟨stores, ?_⟩
      rintro (e | v) ⟨⟩

theorem lies_runRead (lies : s.Lies source)
    (each : ∀ d, .ok d ∈ readings → d.Spanned (Span.Lies source)) :
    ∀ result ∈ (s.runRead readings).results, ResultLies source result := by
  fun_induction runRead s readings with
  | case1 | case2 | case4 | case6 => exact List.forall_mem_nil _
  | case3 s d rest v s' given run ih =>
    have first := lies_evalDatum lies (each d List.mem_cons_self)
    rw [given] at first
    have later := ih first.1 fun d member => each d (List.mem_cons_of_mem _ member)
    exact List.forall_mem_cons.mpr ⟨first.2 (.ok v) rfl, later⟩
  | case5 s d rest e s' external given run ih =>
    have first := lies_evalDatum lies (each d List.mem_cons_self)
    rw [given] at first
    have later := ih first.1 fun d member => each d (List.mem_cons_of_mem _ member)
    exact List.forall_mem_cons.mpr ⟨first.2 (.error e) rfl, later⟩

theorem lies_evalRead {last : Value} (lies : s.Lies source)
    (each : ∀ d, .ok d ∈ readings → d.Spanned (Span.Lies source))
    (spanned : last.Spanned (Span.Lies source)) :
    ∀ result, (s.evalRead last readings).1 = result.mapError .eval → ResultLies source result := by
  fun_induction evalRead s last readings with
  | case1 s last =>
    rintro (e | v) ⟨⟩
    exact spanned
  | case3 s last d rest v s' given ih =>
    have first := lies_evalDatum lies (each d List.mem_cons_self)
    rw [given] at first
    exact ih first.1 (fun d member => each d (List.mem_cons_of_mem _ member)) (first.2 (.ok v) rfl)
  | case5 s last d rest e s' external given =>
    have first := lies_evalDatum lies (each d List.mem_cons_self)
    rw [given] at first
    rintro (e' | v) ⟨⟩
    exact first.2 (.error e) rfl
  | case2 | case4 | case6 => rintro (e | v) ⟨⟩

theorem mem_of_evalRead {last : Value} {e : ReadError}
    (failed : (s.evalRead last readings).1 = .error (.read e)) : .error e ∈ readings := by
  fun_induction evalRead s last readings with
  | case1 => cases failed
  | case2 =>
    cases failed
    exact List.mem_cons_self
  | case3 _ _ _ _ _ _ _ ih => exact List.mem_cons_of_mem _ (ih failed)
  | case4 | case5 | case6 => cases failed

/-- Whatever a source text gives in a fresh session, to be run or to be evaluated, lies in it: each
node of each value, each failure, and the item that a reading error names. A diagnostic of an error
is therefore shown where the error is. -/
theorem spans_lie_in_source (maxDepth fuel : Nat) (source : String) :
    let s : Session := { fresh maxDepth with fuel }
    (∀ v, .ok v ∈ (s.run source).results ∨ (s.evalText source).1 = .ok v →
      ∀ node ∈ v.preorder, node.span.Lies source) ∧
    (∀ e, .error e ∈ (s.run source).results ∨ (s.evalText source).1 = .error (.eval e) →
      e.span.Lies source ∧ Diagnostic.clamp source e.diagnostic.span = e.span) ∧
    ∀ e item, (s.run source).stopped = some (.read e) ∨
        (s.evalText source).1 = .error (.read e) → e.item? = some item →
      item.span.Lies source ∧ Diagnostic.clamp source (e.diagnostic source).span = item.span := by
  intro s
  have each (d : Datum) (member : .ok d ∈ Reader.readAll s.maxDepth (scan source)) :
      d.Spanned (Span.Lies source) := Reader.spanned_of_readAll source member
  have none : (Value.unspecified default).Spanned (Span.Lies source) :=
    Sexpr.spanned_leaf.mpr (Span.lies_default source)
  have lies := lies_fresh source maxDepth fuel
  have runs := lies_runRead lies each
  have evaluates := lies_evalRead lies each none
  have uncut {span : Span} (lies : span.Lies source) : Diagnostic.clamp source span = span :=
    Diagnostic.clamp_of_le lies.ordered lies.inside
  refine ⟨?_, ?_, ?_⟩
  · intro v given
    exact given.elim (runs (.ok v)) (evaluates (.ok v))
  · intro e given
    have inside : e.span.Lies source := given.elim (runs (.error e)) (evaluates (.error e))
    exact ⟨inside, uncut inside⟩
  · intro e item given named
    have member : .error e ∈ Reader.readAll s.maxDepth (scan source) :=
      given.elim mem_of_runRead mem_of_evalRead
    have inside := (Reader.sited_scan source).lies item (Reader.mem_of_readAll member named)
    rw [ReadError.span_diagnostic source named]
    exact ⟨inside, uncut inside⟩

/-- A text that gives a value, fails at a name and ends at a bracket that closes nothing. -/
theorem spans_lie_in_source_of_failures :
    let source := "#t x )"
    let s : Session := { fresh 2 with fuel := 9 }
    let stray : Token := ⟨.closer .round, ⟨5, 6⟩, 1⟩
    (s.run source).results = [.ok (.boolean ⟨0, 2⟩ true), .error (.unbound "x" ⟨3, 4⟩)] ∧
    (s.run source).stopped = some (.read (.unexpected stray .datum)) ∧
    (⟨0, 2⟩ : Span).Lies source ∧ (⟨3, 4⟩ : Span).Lies source ∧ stray.span.Lies source := by
  intro source s stray
  have results : (s.run source).results =
      [.ok (.boolean ⟨0, 2⟩ true), .error (.unbound "x" ⟨3, 4⟩)] := by
    decide +kernel
  have stopped : (s.run source).stopped = some (.read (.unexpected stray .datum)) := by
    decide +kernel
  obtain ⟨values, errors, readings⟩ := spans_lie_in_source 2 9 source
  have value : .ok (.boolean ⟨0, 2⟩ true) ∈ (s.run source).results := by
    rw [results]
    exact List.mem_cons_self
  have error : .error (.unbound "x" ⟨3, 4⟩) ∈ (s.run source).results := by
    rw [results]
    exact List.mem_cons_of_mem _ List.mem_cons_self
  refine ⟨results, stopped, ?_, ?_, ?_⟩
  · exact values _ (.inl value) _ List.mem_cons_self
  · exact (errors _ (.inl error)).1
  · exact (readings _ _ (.inl stopped) rfl).1

end Session
end MiniScheme
