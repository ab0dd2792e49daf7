import MiniScheme.Proofs.Console.Entries

/-!
# What the batch program writes, and its status

The program runs the sources it is given one after another in one session, up to the first file
without a text. What it writes to the output is what these runs show, and its status is a success
just if every file has a text, every source is read to its end and nothing fails in any of them. The
way it gets there, with a flag that is handed from source to source and two places where it may end
early, does not show.

A source that fails is no end: the runs go on. Only an internal error would end the program, and no
session that it can be in has one.
-/
namespace MiniScheme

/-- The runs of source texts one after another, each in the session that the one before has left. -/
def Session.runs (s : Session) : List String → List Run
  | [] => []
  | source :: rest => s.run source :: (s.run source).session.runs rest

namespace Batch

/-- The text of a file, with the bytes found under its name if any were. -/
def fileText? (file : String × Option ByteArray) : Option String := file.2.bind String.fromUTF8?

/-- The inputs that files and expressions make. -/
def inputs (files : List (String × Option ByteArray)) (expressions : List String) : List Input :=
  files.map (fun file => .ofBytes file.1 file.2) ++ expressions.map .expression

/-- The sources to be run: the texts of the files in front of the first that has none and, if there
is no such file, the expressions. -/
def sources (files : List (String × Option ByteArray)) (expressions : List String) : List String :=
  (files.takeWhile fun file => (fileText? file).isSome).filterMap fileText? ++
    if files.all fun file => (fileText? file).isSome then expressions else []

/-- The texts in front of the first input that has none. -/
def texts : List Input → List String
  | [] => []
  | input :: rest =>
    match input.text? with
    | none => []
    | some source => source :: texts rest

/-- What the results of runs show on the output. -/
def shownBy (runs : List Run) : String :=
  String.join (runs.flatMap fun run => run.results.filterMap shown?)

section Sources

variable (files : List (String × Option ByteArray)) (expressions : List String)

theorem texts_expressions : texts (expressions.map .expression) = expressions := by
  induction expressions with
  | nil => rfl
  | cons source rest ih => simp [texts, Input.text?, ih]

theorem text?_ofBytes (file : String × Option ByteArray) :
    (Input.ofBytes file.1 file.2).text? = fileText? file := rfl

theorem texts_inputs : texts (inputs files expressions) = sources files expressions := by
  unfold inputs
  induction files with
  | nil => simp [sources, texts_expressions]
  | cons file files ih =>
    rw [List.map_cons, List.cons_append, texts, text?_ofBytes]
    cases text : fileText? file with
    | none => simp [sources, text]
    | some source =>
      have readable : (fileText? file).isSome = true := by rw [text]; rfl
      dsimp only
      rw [ih, sources, sources, List.all_cons, readable, Bool.true_and]
      simp [text]

theorem all_inputs : ((inputs files expressions).all fun input => input.text?.isSome) =
    files.all fun file => (fileText? file).isSome := by
  have expressed : (expressions.map Input.expression).all (·.text?.isSome) = true := by
    simp [Input.text?]
  rw [inputs, List.all_append, expressed, Bool.and_true, List.all_map]
  rfl

end Sources

section Program

variable {s : Session}

/-- The output is what the runs show, whatever fails in them. -/
theorem outputText_runFrom (codeOnly : s.store.isCodeOnly) (failed : Bool) (inputs : List Input) :
    Line.outputText (runFrom s failed inputs).lines = shownBy (s.runs (texts inputs)) := by
  induction inputs generalizing s failed with
  | nil => rfl
  | cons input rest ih =>
    cases text : input.text? with
    | none =>
      simp only [runFrom, takeInput, texts, text]
      rfl
    | some source =>
      have safe : Session.SafeRun (s.run source) := Session.safe_runRead codeOnly _
      rw [runFrom_of_text codeOnly text, texts, text]
      dsimp only
      rw [Line.outputText_append, Run.outputText_lines, ih safe.codeOnly, shownBy, shownBy,
        Session.runs, List.flatMap_cons, String.join_append]

/-- The flag says that something failed before, so the status is a success just if it is not raised
and nothing fails after. -/
theorem status_runFrom (codeOnly : s.store.isCodeOnly) (failed : Bool) (inputs : List Input) :
    (runFrom s failed inputs).status =
      if !failed && inputs.all (·.text?.isSome) && (s.runs (texts inputs)).all (!·.failed) then 0
      else 1 := by
  induction inputs generalizing s failed with
  | nil => cases failed <;> rfl
  | cons input rest ih =>
    cases text : input.text? with
    | none => simp [runFrom, takeInput, text]
    | some source =>
      have safe : Session.SafeRun (s.run source) := Session.safe_runRead codeOnly _
      rw [runFrom_of_text codeOnly text, texts, text]
      dsimp only
      rw [ih safe.codeOnly, Session.runs, List.all_cons, List.all_cons, text]
      cases failed <;> cases (s.run source).failed <;> simp

end Program

end Batch

/-- A run has not failed if it was not stopped and none of its results is an error. -/
theorem Run.failed_eq_false_iff (run : Run) :
    run.failed = false ↔ run.stopped = none ∧ ∀ e, .error e ∉ run.results := by
  rw [failed, Bool.or_eq_false_iff, Option.isSome_eq_false_iff, Option.isNone_iff_eq_none,
    List.any_eq_false]
  refine and_congr_right fun _ => ⟨?_, ?_⟩
  · intro none e member
    exact none _ member rfl
  · intro none result member
    cases result with
    | ok v => simp
    | error e => exact absurd member (none e)

namespace Session

variable {s : Session} {readings : List (Except ReadError Datum)}

/-- A reading error stops the run, if nothing else has. -/
theorem stopped_of_mem {e : ReadError} (member : .error e ∈ readings) :
    (s.runRead readings).stopped ≠ none := by
  induction readings generalizing s with
  | nil => cases member
  | cons reading rest ih =>
    cases reading with
    | error e' => simp [runRead]
    | ok d =>
      have later : .error e ∈ rest := by simpa using member
      obtain ⟨result, s', settles⟩ | ⟨v, s', internal⟩ | ⟨s', exhausted⟩ := evalDatum_cases s d
      · rw [runRead_of_settles settles]
        exact ih later
      · simp [runRead, internal]
      · simp [runRead, exhausted]

/-- Among runs that come to an end, those without failure are the ones without errors of texts that
are read to their end. -/
theorem run_failed_eq_false_iff {source : String} (codeOnly : s.store.isCodeOnly)
    (ends : (s.run source).stopped ≠ some .exhausted) :
    (s.run source).failed = false ↔ (∀ e, .error e ∉ (s.run source).results) ∧
      ∀ e, .error e ∉ Reader.readAll s.maxDepth (scan source) := by
  have whole : (s.run source).stopped = none ↔
      ∀ e, .error e ∉ Reader.readAll s.maxDepth (scan source) := by
    constructor
    · intro none e member
      exact stopped_of_mem member none
    · intro clean
      cases stopped : (s.run source).stopped with
      | none => rfl
      | some why =>
        obtain rfl | ⟨message, rfl⟩ := runRead_stopped clean stopped
        · exact absurd stopped ends
        · exact absurd stopped ((safe_runRead codeOnly _).stopped message)
  rw [Run.failed_eq_false_iff, whole, and_comm]

/-- No run of several fails just if there is no error in any and all are read to their end. -/
theorem runs_all_iff {sources : List String} (codeOnly : s.store.isCodeOnly)
    (ends : ∀ run ∈ s.runs sources, run.stopped ≠ some .exhausted) :
    (s.runs sources).all (!·.failed) = true ↔
      (∀ run ∈ s.runs sources, ∀ e, .error e ∉ run.results) ∧
      ∀ source ∈ sources, ∀ e, .error e ∉ Reader.readAll s.maxDepth (scan source) := by
  induction sources generalizing s with
  | nil => simp [runs]
  | cons source rest ih =>
    have safe : SafeRun (s.run source) := safe_runRead codeOnly _
    have depth : (s.run source).session.maxDepth = s.maxDepth := runRead_maxDepth s _
    simp only [runs, List.forall_mem_cons] at ends ⊢
    rw [List.all_cons, Bool.and_eq_true, Bool.not_eq_true', run_failed_eq_false_iff codeOnly ends.1,
      ih safe.codeOnly ends.2, depth]
    tauto

end Session

namespace Batch

/-- The program is given files, by their names and bytes, and expressions, and none of the
evaluations goes on for ever. The sources are the texts of the files in front of the first that
cannot be read and, if all can, the expressions. Then the output is what the runs of all the
sources, one after another in one session, show of their values; and the status is zero if every
file can be read, no run gives an error and every source is read to its end, and otherwise one.

How deep evaluations may nest is left open here; `Batch.run` allows `Session.defaultFuel`. -/
theorem outcome_of_sources (maxDepth fuel : Nat) (files : List (String × Option ByteArray))
    (expressions : List String)
    (ends : ∀ run ∈ Session.runs { Session.fresh maxDepth with fuel } (sources files expressions),
      run.stopped ≠ some .exhausted) :
    let s : Session := { Session.fresh maxDepth with fuel }
    let runs := s.runs (sources files expressions)
    let outcome := runFrom s false (inputs files expressions)
    let clean := (∀ file ∈ files, (fileText? file).isSome) ∧
      (∀ run ∈ runs, ∀ e, .error e ∉ run.results) ∧
      ∀ source ∈ sources files expressions, ∀ e, .error e ∉ Reader.readAll maxDepth (scan source)
    Line.outputText outcome.lines =
        String.join (runs.flatMap fun run => run.results.filterMap shown?) ∧
      (clean → outcome.status = 0) ∧ (¬ clean → outcome.status = 1) := by
  intro s runs outcome clean
  have codeOnly : s.store.isCodeOnly := Session.isCodeOnly_fresh maxDepth
  have succeeds : (!false && (inputs files expressions).all (·.text?.isSome) &&
      runs.all (!·.failed)) = true ↔ clean := by
    rw [Bool.not_false, Bool.true_and, Bool.and_eq_true, all_inputs, List.all_eq_true,
      Session.runs_all_iff codeOnly ends]
    rfl
  have status := status_runFrom codeOnly false (inputs files expressions)
  rw [texts_inputs] at status
  refine ⟨?_, ?_, ?_⟩
  · rw [outputText_runFrom codeOnly, texts_inputs]
    rfl
  · intro holds
    rw [if_pos (succeeds.mpr holds)] at status
    exact status
  · intro fails
    rw [if_neg (mt succeeds.mp fails)] at status
    exact status

set_option maxRecDepth 1000 in
/-- A file with an unbound name before a value, and expressions of which the first is not closed.
Both values are written, and the status tells of the errors. -/
theorem outcome_of_sources_past_errors :
    let files := [("file", some "x #t".toUTF8)]
    let expressions := ["(", "#f"]
    let s : Session := { Session.fresh 2 with fuel := 9 }
    (∀ run ∈ s.runs (sources files expressions), run.stopped ≠ some .exhausted) ∧
      Line.outputText (runFrom s false (inputs files expressions)).lines = "#t\n#f\n" ∧
      (runFrom s false (inputs files expressions)).status = 1 := by
  intro files expressions s
  have found : sources files expressions = ["x #t", "(", "#f"] := by cbv
  have results : (s.runs (sources files expressions)).map Run.results =
      [[.error (.unbound "x" ⟨0, 1⟩), .ok (.boolean ⟨2, 4⟩ true)], [],
        [.ok (.boolean ⟨0, 2⟩ false)]] := by
    rw [found]
    cbv
  have ends : ∀ run ∈ s.runs (sources files expressions), run.stopped ≠ some .exhausted := by
    have each : (s.runs (sources files expressions)).all (·.stopped ≠ some .exhausted) := by
      rw [found]
      cbv
    simpa using each
  obtain ⟨output, -, fails⟩ := outcome_of_sources 2 9 files expressions ends
  refine ⟨ends, output.trans ?_, fails ?_⟩
  · rw [← List.flatMap_map, results]
    cbv
  · rintro ⟨-, clean, -⟩
    have member : [.error (.unbound "x" ⟨0, 1⟩), .ok (.boolean ⟨2, 4⟩ true)] ∈
        (s.runs (sources files expressions)).map Run.results := by
      rw [results]
      exact List.mem_cons_self
    obtain ⟨run, ran, same⟩ := List.mem_map.mp member
    exact clean run ran (.unbound "x" ⟨0, 1⟩) (same ▸ List.mem_cons_self)

end Batch
end MiniScheme
