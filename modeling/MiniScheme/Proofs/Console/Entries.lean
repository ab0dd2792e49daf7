import MiniScheme.Batch
import MiniScheme.Console.Repl
import MiniScheme.Proofs.Session.Concatenation
import MiniScheme.Proofs.Token.Trim

/-!
# Entries answer as expressions do

An entry of the interactive loop is run without the blanks around it, an expression of the batch
program as it is. What is written to the output is the same as long as only layout is taken off in
front and no token is cut at the end: a text and what is left of it then have the same tokens up to
their first error, so the same data are read and evaluated, at other places. A character literal of
a blank at the end of an entry is cut.
-/
namespace MiniScheme

namespace Reader

open Scan

variable {xs ys : List Item}

theorem readFrom_halted (limit : Nat) (s : State) (halted : Halted xs) :
    ∃ e, (readFrom limit s xs).1 = .error e := by
  cases halted with
  | ended => exact ⟨_, rfl⟩
  | failed e rest => exact ⟨_, rfl⟩

/-- With the same tokens up to an error, the same datum is read, or none. -/
theorem readFrom_sameTokens (limit : Nat) (s : State) (same : SameTokens xs ys) :
    ((∃ e, (readFrom limit s xs).1 = .error e) ∧ ∃ e, (readFrom limit s ys).1 = .error e) ∨
      ∃ d xs' ys', readFrom limit s xs = (.ok d, xs') ∧ readFrom limit s ys = (.ok d, ys') ∧
        SameTokens xs' ys' := by
  induction same generalizing s with
  | halted left right => exact .inl ⟨readFrom_halted limit s left, readFrom_halted limit s right⟩
  | @token xs ys t rest ih =>
    unfold readFrom
    cases step limit s t with
    | error e => exact .inl ⟨⟨e, rfl⟩, ⟨e, rfl⟩⟩
    | ok next =>
      cases next with
      | done d => exact .inr ⟨d, xs, ys, rfl, rfl, rest⟩
      | more s' => exact ih s'

theorem readAll_of_error {limit : Nat} {e : ReadError} (failed : (read limit xs).1 = .error e) :
    ∃ fault : Option ReadError, readAll limit xs = (fault.map .error).toList := by
  cases xs with
  | nil => exact ⟨none, by rw [readAll]; rfl⟩
  | cons x xs =>
    refine ⟨some e, ?_⟩
    rw [readAll, failed]
    rfl

theorem readAll_of_ok {limit : Nat} {d : Datum} (success : read limit xs = (.ok d, ys)) :
    readAll limit xs = .ok d :: readAll limit ys ∧ ys.length < xs.length := by
  cases xs with
  | nil => cases success
  | cons x xs =>
    have shorter := length_read_cons limit x xs
    rw [success] at shorter
    rw [readAll, success]
    exact ⟨rfl, shorter⟩

/-- With the same tokens up to an error, the same data are read, up to an error or the end. -/
theorem readAll_sameTokens (limit : Nat) (same : SameTokens xs ys) :
    ∃ (data : List Datum) (fault fault' : Option ReadError),
      readAll limit xs = data.map .ok ++ (fault.map .error).toList ∧
        readAll limit ys = data.map .ok ++ (fault'.map .error).toList := by
  induction size : xs.length using Nat.strongRecOn generalizing xs ys with
  | _ n ih =>
    obtain ⟨⟨e, left⟩, ⟨e', right⟩⟩ | ⟨d, xs', ys', left, right, rest⟩ :=
      readFrom_sameTokens limit (.expecting []) same
    · obtain ⟨fault, shape⟩ := readAll_of_error left
      obtain ⟨fault', shape'⟩ := readAll_of_error right
      exact ⟨[], fault, fault', shape, shape'⟩
    · obtain ⟨first, shorter⟩ := readAll_of_ok left
      obtain ⟨first', -⟩ := readAll_of_ok right
      obtain ⟨data, fault, fault', shape, shape'⟩ := ih _ (size ▸ shorter) rest rfl
      refine ⟨d :: data, fault, fault', ?_, ?_⟩
      · rw [first, shape]
        rfl
      · rw [first', shape']
        rfl

end Reader

/-- The results of two runs, and what is bound after them, are the same, places aside. -/
structure Run.Alike (r r' : Run) : Prop where
  results : r.results.map (EvalError.eraseIn Sexpr.erase) =
    r'.results.map (EvalError.eraseIn Sexpr.erase)
  session : r.session.erase = r'.session.erase

namespace Session

/-- An error after some data has no part in what they give. -/
theorem runRead_fault (s : Session) (data : List Datum) (fault : Option ReadError) :
    ∃ stopped, s.runRead (data.map .ok ++ (fault.map .error).toList) =
      { s.runRead (data.map .ok) with stopped } := by
  induction data generalizing s with
  | nil =>
    cases fault with
    | none => exact ⟨none, rfl⟩
    | some e => exact ⟨some (.read e), rfl⟩
  | cons d data ih =>
    rw [List.map_cons, List.cons_append]
    obtain ⟨result, s', settles⟩ | ⟨v, s', internal⟩ | ⟨s', exhausted⟩ := evalDatum_cases s d
    · obtain ⟨stopped, rest⟩ := ih s'
      rw [runRead_of_settles settles, runRead_of_settles settles, rest]
      exact ⟨stopped, rfl⟩
    · rw [runRead, runRead, internal]
      exact ⟨_, rfl⟩
    · rw [runRead, runRead, exhausted]
      exact ⟨_, rfl⟩

/-- In sessions that differ in places only, readings that agree up to an error, places aside, are
run alike. -/
theorem runRead_alike {s s' : Session} {xs ys zs : List (Except ReadError Datum)}
    {data : List Datum} {fault fault' : Option ReadError} (sessions : s.erase = s'.erase)
    (shape : xs = data.map .ok ++ (fault.map .error).toList)
    (shape' : ys = data.map .ok ++ (fault'.map .error).toList)
    (places : zs.map (ReadError.eraseIn Sexpr.erase) = ys.map (ReadError.eraseIn Sexpr.erase)) :
    Run.Alike (s.runRead xs) (s'.runRead zs) := by
  obtain ⟨stopped, front⟩ := runRead_fault s data fault
  obtain ⟨stopped', front'⟩ := runRead_fault s data fault'
  have erased : (s'.runRead zs).erase =
      { s.runRead (data.map .ok) with stopped := stopped' }.erase := by
    rw [← front', ← shape', ← runRead_erase, ← runRead_erase, places, sessions]
  rw [shape, front]
  exact ⟨(congrArg Run.results erased).symm, (congrArg Run.session erased).symm⟩

end Session

namespace Text

/-- A text is what stands between the blanks at its ends, and these. -/
theorem exists_trim (text : List Char) : ∃ behind, (∀ c ∈ behind, isBlank c) ∧
    text = text.takeWhile isBlank ++ (trim text ++ behind) := by
  refine ⟨((text.dropWhile isBlank).reverse.takeWhile isBlank).reverse, ?_, ?_⟩
  · intro c member
    exact List.mem_takeWhile_imp (List.mem_reverse.mp member)
  · rw [trim, ← List.reverse_append, List.takeWhile_append_dropWhile, List.reverse_reverse,
      List.takeWhile_append_dropWhile]

end Text

namespace Repl

/-- In front of the text stands no white space but layout, and no token goes on into the blanks at
its end. -/
structure TrimsLayout (text : List Char) : Prop where
  front : ∀ c ∈ text.takeWhile Text.isBlank, Lexeme.isLayout c
  back : ∀ t, .ok t ∈ scan (String.ofList text) →
    t.span.stop ≤ byteLength (text.takeWhile Text.isBlank ++ Text.trim text)

/-- The same, as it is decided. -/
def trimsLayout (text : List Char) : Bool :=
  (text.takeWhile Text.isBlank).all Lexeme.isLayout &&
    (scan (String.ofList text)).all fun item => item.toOption.all fun t =>
      t.span.stop ≤ byteLength (text.takeWhile Text.isBlank ++ Text.trim text)

theorem trimsLayout_iff {text : List Char} : trimsLayout text ↔ TrimsLayout text := by
  simp only [trimsLayout, Bool.and_eq_true, List.all_eq_true]
  refine ⟨?_, ?_⟩
  · rintro ⟨front, back⟩
    exact ⟨front, fun t member => of_decide_eq_true (back _ member)⟩
  · intro layout
    refine ⟨layout.front, ?_⟩
    intro item member
    cases item with
    | error e => rfl
    | ok t => exact decide_eq_true (layout.back t member)

/-- A text and what is left of it without blanks have the same tokens, up to an error and places
aside. -/
theorem TrimsLayout.sameTokens {text : List Char} (layout : TrimsLayout text) :
    ∃ items, Scan.SameTokens (scan (String.ofList text)) items ∧
      items.map Item.erase = (scan (String.ofList (Text.trim text))).map Item.erase := by
  obtain ⟨behind, blank, split⟩ := Text.exists_trim text
  have moved : scan (String.ofList text) =
      Scan.itemsOnto [] (Position.first.advance (text.takeWhile Text.isBlank))
        (Text.trim text ++ behind) := by
    rw [scan, Scan.items, String.toList_ofList]
    nth_rewrite 1 [split]
    exact Scan.itemsOnto_layouts layout.front _
  have kept : ∀ t, .ok t ∈ scan (String.ofList text) → t.span.stop ≤
      (Position.first.advance (text.takeWhile Text.isBlank)).offset +
        byteLength (Text.trim text) := by
    intro t member
    have inside := layout.back t member
    rw [byteLength_append] at inside
    simpa [Position.advance, Position.first] using inside
  rw [moved] at kept ⊢
  refine ⟨_, Scan.sameTokens_blanks blank kept, ?_⟩
  unfold scan Scan.items
  rw [String.toList_ofList]
  exact Scan.itemsOnto_erase _ _ _

/-- To run a text is to run it without the blanks around it. -/
theorem TrimsLayout.alike {text : List Char} {s s' : Session} (layout : TrimsLayout text)
    (sessions : s.erase = s'.erase) :
    Run.Alike (s.run (String.ofList text)) (s'.run (String.ofList (Text.trim text))) := by
  obtain ⟨items, same, erased⟩ := layout.sameTokens
  have limits : s.erase.maxDepth = s'.erase.maxDepth := by rw [sessions]
  obtain ⟨data, fault, fault', whole, left⟩ := Reader.readAll_sameTokens s.maxDepth same
  refine Session.runRead_alike sessions whole left ?_
  rw [← Reader.readAll_erase, ← Reader.readAll_erase, erased]
  exact congrArg (Reader.readAll · _) limits.symm

end Repl

section Output

/-- What is written to the output for the result of one datum. -/
def shown? : Except EvalError Value → Option String
  | .ok v => if v.isUnspecified then none else some (v.text ++ "\n")
  | .error _ => none

theorem shown?_erase (result : Except EvalError Value) :
    shown? (EvalError.eraseIn Sexpr.erase result) = shown? result := by
  cases result with
  | error e => rfl
  | ok v =>
    have same : Value.isUnspecified v.erase = v.isUnspecified := by
      cases v with
      | leaf span r => cases r <;> rfl
      | _ => rfl
    simp only [EvalError.eraseIn, shown?, same, Value.text_erase]

namespace Line

theorem outputText_append (front back : List Line) :
    outputText (front ++ back) = outputText front ++ outputText back := by
  rw [outputText, List.filterMap_append, String.join_append]
  rfl

theorem outputText_error (texts : List String) : outputText (texts.map .error) = "" := by
  induction texts with
  | nil => rfl
  | cons text texts ih => exact ih

end Line

theorem outputText_resultLines (name source : String) (result : Except EvalError Value) :
    Line.outputText (resultLines name source result) = String.join (shown? result).toList := by
  cases result with
  | error e => exact Line.outputText_error _
  | ok v =>
    by_cases unspecified : v.isUnspecified
    · simp [resultLines, shown?, unspecified, Line.outputText]
    · simp [resultLines, shown?, unspecified, Line.outputText]

/-- The output of a run is that of its results; errors go elsewhere. -/
theorem Run.outputText_lines (run : Run) (name source : String) :
    Line.outputText (run.lines name source) = String.join (run.results.filterMap shown?) := by
  have results : Line.outputText (run.results.flatMap (resultLines name source)) =
      String.join (run.results.filterMap shown?) := by
    induction run.results with
    | nil => rfl
    | cons result results ih =>
      rw [List.flatMap_cons, Line.outputText_append, ih, outputText_resultLines]
      cases shown : shown? result with
      | none =>
        rw [List.filterMap_cons_none shown]
        exact String.empty_append
      | some text =>
        rw [List.filterMap_cons_some shown, String.join_cons]
        simp
  rw [lines, Line.outputText_append, results]
  cases run.stopped with
  | none => exact String.append_empty
  | some e => rw [Line.outputText_error, String.append_empty]

theorem Run.Alike.outputText {r r' : Run} (alike : r.Alike r')
    (name name' source source' : String) :
    Line.outputText (r.lines name source) = Line.outputText (r'.lines name' source') := by
  have shown (results : List (Except EvalError Value)) : results.filterMap shown? =
      (results.map (EvalError.eraseIn Sexpr.erase)).filterMap shown? := by
    rw [List.filterMap_map]
    exact List.filterMap_congr fun result _ => (shown?_erase result).symm
  rw [outputText_lines, outputText_lines, shown, alike.results, ← shown]

end Output

namespace Entry

/-- The texts that were found complete. -/
def complete (checks : List Check) : List (List Char) :=
  (checks.filter (·.verdict = .valid)).map Check.text

end Entry

theorem Session.isCodeOnly_fresh (maxDepth : Nat) : (fresh maxDepth).store.isCodeOnly := by
  have reached : Reached maxDepth defaultFuel (fresh maxDepth) := .fresh
  exact reached.codeOnly

/-- No text fails internally, so the program goes on after it. -/
theorem Batch.takeInput_of_text {s : Session} {input : Input} {source : String}
    (codeOnly : s.store.isCodeOnly) (text : input.text? = some source) :
    takeInput s input =
      ((s.run source).lines input.name source,
        some ((s.run source).session, (s.run source).failed)) := by
  have safe := Session.safe_runRead codeOnly (Reader.readAll s.maxDepth (scan source))
  simp only [takeInput, text]
  split
  · next message stopped => exact absurd stopped (safe.stopped message)
  · rfl

theorem Batch.runFrom_of_text {s : Session} {input : Input} {source : String}
    (codeOnly : s.store.isCodeOnly) (text : input.text? = some source) (failed : Bool)
    (rest : List Input) :
    runFrom s failed (input :: rest) =
      let after := runFrom (s.run source).session (failed || (s.run source).failed) rest
      ⟨(s.run source).lines input.name source ++ after.lines, after.status⟩ := by
  rw [runFrom, takeInput_of_text codeOnly text]

theorem Batch.lines_expression {s : Session} (codeOnly : s.store.isCodeOnly) (failed : Bool)
    (source : String) (rest : List Input) :
    (runFrom s failed (.expression source :: rest)).lines =
      (s.run source).lines expressionName source ++
        (runFrom (s.run source).session (failed || (s.run source).failed) rest).lines := by
  rw [runFrom_of_text codeOnly rfl]
  rfl

namespace Repl

/-- Takes entries to their end. -/
def takeEntries (s : Session) : List (List Char) → List Line
  | [] => farewell
  | entry :: rest =>
    match takeEntry s entry with
    | (written, none) => written
    | (written, some s) => written ++ takeEntries s rest

/-- The lines of the input matter to the output through the entries found complete in them. -/
theorem outputText_takeLines (s : State) (lines : List (List Char)) :
    Line.outputText (takeLines s lines) =
      Line.outputText (takeEntries s.session (Entry.complete (Entry.checksFrom s.gathered lines)))
      := by
  induction lines generalizing s with
  | nil => rfl
  | cons line rest ih =>
    rw [takeLines, takeLine, Entry.checksFrom]
    obtain ⟨⟨text, verdict⟩, kept⟩ := Entry.absorb s.gathered line
    cases verdict with
    | valid =>
      change _ = Line.outputText
        (takeEntries s.session (text :: Entry.complete (Entry.checksFrom kept rest)))
      rw [takeEntries]
      dsimp only
      obtain ⟨written, after⟩ := takeEntry s.session text
      cases after with
      | none => rfl
      | some session =>
        dsimp only [Option.map_some]
        rw [Line.outputText_append, Line.outputText_append, ih ⟨session, kept⟩]
    | incomplete => exact ih ⟨s.session, kept⟩
    | invalid b offset =>
      -- what is said of the bracket goes to the errors
      exact ih ⟨s.session, kept⟩

theorem outputText_transcript (input : String) :
    Line.outputText (transcript input) = Line.outputText banner ++ Line.outputText
      (takeEntries (.fresh defaultMaxDepth) (Entry.complete (Entry.checks input.toList))) := by
  rw [transcript, Line.outputText_append, outputText_takeLines]
  rfl

theorem takeEntry_of_proper {entry : List Char} (s : Session) (nonempty : Text.trim entry ≠ [])
    (stays : isExit (Text.trim entry) = false) :
    takeEntry s entry =
      let source := String.ofList (Text.trim entry)
      ((s.run source).lines sourceName source, some (s.run source).session) := by
  simp [takeEntry, nonempty, stays]

/-- Entry after entry, the loop writes what the program writes for the expressions, as long as their
sessions differ in places only. -/
theorem outputText_takeEntries {s s' : Session} {texts : List (List Char)}
    (sessions : s.erase = s'.erase) (codeOnly : s.store.isCodeOnly) (failed : Bool)
    (proper : ∀ text ∈ texts, Text.trim text ≠ [] ∧ isExit (Text.trim text) = false)
    (layout : ∀ text ∈ texts, TrimsLayout text) :
    Line.outputText (takeEntries s' texts) =
      Line.outputText (Batch.runFrom s failed (texts.map (.expression <| String.ofList ·))).lines ++
        Line.outputText farewell := by
  induction texts generalizing s s' failed with
  | nil => rfl
  | cons text rest ih =>
    -- the sessions part here: what is defined in the entry stands elsewhere in the expression
    obtain ⟨nonempty, stays⟩ := proper text List.mem_cons_self
    have alike := (layout text List.mem_cons_self).alike sessions
    have safe := Session.safe_runRead codeOnly
      (Reader.readAll s.maxDepth (scan (String.ofList text)))
    have later := ih alike.session safe.codeOnly
      (failed || (s.run (String.ofList text)).failed)
      (fun text member => proper text (List.mem_cons_of_mem _ member))
      (fun text member => layout text (List.mem_cons_of_mem _ member))
    rw [takeEntries, takeEntry_of_proper s' nonempty stays, List.map_cons,
      Batch.lines_expression codeOnly]
    dsimp only
    rw [Line.outputText_append, Line.outputText_append, later, String.append_assoc,
      alike.outputText Batch.expressionName sourceName]

/-- Let no entry be blank or ask to leave, and let only layout be taken off around each. Then the
interactive loop writes to the output, after the banner and before the farewell, what the batch
program writes there when it is given the entries as expressions, blanks and all; so it does for
every input in which these are the entries found complete. -/
theorem entries_answer_as_expressions (texts : List (List Char))
    (proper : ∀ text ∈ texts, Text.trim text ≠ [] ∧ isExit (Text.trim text) = false)
    (layout : ∀ text ∈ texts, TrimsLayout text) :
    let expressions := texts.map fun text => Batch.Input.expression (String.ofList text)
    let answers := Line.outputText (Batch.run defaultMaxDepth expressions).lines
    Line.outputText (banner ++ takeEntries (.fresh defaultMaxDepth) texts) =
        Line.outputText banner ++ answers ++ Line.outputText farewell ∧
      ∀ input : String, Entry.complete (Entry.checks input.toList) = texts →
        Line.outputText (transcript input) =
          Line.outputText banner ++ answers ++ Line.outputText farewell := by
  intro expressions answers
  have taken : Line.outputText (takeEntries (.fresh defaultMaxDepth) texts) =
      answers ++ Line.outputText farewell :=
    outputText_takeEntries rfl (Session.isCodeOnly_fresh _) false proper layout
  refine ⟨?_, ?_⟩
  · rw [Line.outputText_append, taken, String.append_assoc]
  · intro input entries
    rw [outputText_transcript, entries, taken, String.append_assoc]

set_option maxRecDepth 1000 in
/-- Layout is taken off in front of two entries, a blank that is no layout behind the first. The
character that the second finds under the name of the first is a blank, but not at its end. -/
theorem entries_answer_as_expressions_between_blanks :
    let texts := ["  (define x '(#\\ ))\u00a0".toList, "\t(car x) ".toList]
    (∀ text ∈ texts, Text.trim text ≠ [] ∧ isExit (Text.trim text) = false) ∧
      (∀ text ∈ texts, TrimsLayout text) ∧
      Line.outputText (transcript "  (define x '(#\\ ))\u00a0\n\t(car x) \n") =
        Line.outputText banner ++
          Line.outputText (Batch.run defaultMaxDepth [.expression "  (define x '(#\\ ))\u00a0",
            .expression "\t(car x) "]).lines ++
          Line.outputText farewell := by
  intro texts
  have proper : ∀ text ∈ texts, Text.trim text ≠ [] ∧ isExit (Text.trim text) = false := by
    decide +kernel
  have layout : ∀ text ∈ texts, TrimsLayout text := by
    have decided : texts.all trimsLayout = true := by cbv
    intro text member
    exact trimsLayout_iff.mp (List.all_eq_true.mp decided text member)
  have entries : Entry.complete (Entry.checks
      "  (define x '(#\\ ))\u00a0\n\t(car x) \n".toList) = texts := by cbv
  exact ⟨proper, layout, (entries_answer_as_expressions texts proper layout).2 _ entries⟩

/-- An entry of one character literal, that of a space, is complete. Without the space at its end it
is no literal, and nothing is written for it; as an expression it is answered. -/
theorem space_literal_cut :
    let text := "#\\ ".toList
    Balance.check text = .valid ∧ Text.trim text ≠ [] ∧ isExit (Text.trim text) = false ∧
      Entry.complete (Entry.checks "#\\ \n".toList) = [text] ∧
      Line.outputText (transcript "#\\ \n") =
        Line.outputText banner ++ Line.outputText farewell ∧
      Line.outputText (Batch.run defaultMaxDepth [.expression (String.ofList text)]).lines =
        "#\\space\n" := by
  intro text
  have nonempty : Text.trim text ≠ [] := by decide +kernel
  have stays : isExit (Text.trim text) = false := by cbv
  have entries : Entry.complete (Entry.checks "#\\ \n".toList) = [text] := by cbv
  refine ⟨by cbv, nonempty, stays, entries, ?_, ?_⟩
  · obtain ⟨e, read⟩ : ∃ e, Reader.readAll defaultMaxDepth
        (scan (String.ofList (Text.trim text))) = [.error e] := ⟨_, by cbv⟩
    have ran : (Session.fresh defaultMaxDepth).run (String.ofList (Text.trim text)) =
        (Session.fresh defaultMaxDepth).runRead [.error e] := congrArg _ read
    rw [outputText_transcript, entries, takeEntries, takeEntry_of_proper _ nonempty stays]
    dsimp only
    rw [Line.outputText_append, Run.outputText_lines, ran]
    exact congrArg _ String.empty_append
  · have read : Reader.readAll defaultMaxDepth (scan (String.ofList text)) =
        [.ok (.atom ⟨0, 3⟩ (.character ' '))] := by cbv
    have ran : (Session.fresh defaultMaxDepth).run (String.ofList text) =
        (Session.fresh defaultMaxDepth).runRead [.ok (.atom ⟨0, 3⟩ (.character ' '))] :=
      congrArg _ read
    rw [Batch.run, Batch.lines_expression (Session.isCodeOnly_fresh _), Line.outputText_append,
      Run.outputText_lines, ran]
    rfl

end Repl

end MiniScheme
