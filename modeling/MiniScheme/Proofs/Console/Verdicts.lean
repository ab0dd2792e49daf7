import MiniScheme.Proofs.Console.Entries

/-!
# The verdict on a text that grows

A text that lacks something can be completed. A closing bracket that closes nothing is final: the
verdict on the text stays the same whatever is written behind it. The interactive loop keeps such a
text and adds every further line to it, so that nothing is answered any more, unless a backspace of
a later line takes the bracket back.
-/
namespace MiniScheme

namespace Balance

variable {mode : Mode} {stack : List Bracket} {offset i : Nat} {cs : List Char} {b : Bracket}

theorem eq_closing_of_closed? {c : Char} (closed : closed? c = some b) : c = b.closing := by
  unfold closed? at closed
  split at closed
  · cases closed
    rfl
  · cases closed
    rfl
  · cases closed

/-- What one character does: the check goes on behind it, or ends there with a bracket that closes
nothing. What stands behind the character has no part in this. -/
theorem checkFrom_cons (mode : Mode) (stack : List Bracket) (offset : Nat) (c : Char) :
    (∃ mode' stack', ∀ cs,
      checkFrom mode stack offset (c :: cs) = checkFrom mode' stack' (offset + c.utf8Size) cs) ∨
    ∃ b : Bracket, c = b.closing ∧
      ∀ cs, checkFrom mode stack offset (c :: cs) = .invalid b offset := by
  by_cases code : mode = .code
  · cases opened : opened? c with
    | some b => exact .inl ⟨.code, b :: stack, fun cs => by simp [checkFrom, code, opened]⟩
    | none =>
      cases closed : closed? c with
      | none =>
        exact .inl ⟨mode.after c, stack, fun cs => by simp [checkFrom, code, opened, closed]⟩
      | some b =>
        have named := eq_closing_of_closed? closed
        cases stack with
        | nil => exact .inr ⟨b, named, fun cs => by simp [checkFrom, code, opened, closed]⟩
        | cons top rest =>
          by_cases pair : top = b
          · exact .inl ⟨.code, rest, fun cs => by simp [checkFrom, code, opened, closed, pair]⟩
          · exact .inr ⟨b, named, fun cs => by simp [checkFrom, code, opened, closed, pair]⟩
  · exact .inl ⟨mode.after c, stack, fun cs => by simp [checkFrom, code]⟩

theorem checkFrom_nil_ne_invalid : checkFrom mode stack offset [] ≠ .invalid b i := by
  cases mode <;> cases stack <;> simp [checkFrom]

/-- The bracket that closes nothing stands in the text at the offset named, and the verdict is the
same whatever stands behind it. -/
theorem exists_unmatched (invalid : checkFrom mode stack offset cs = .invalid b i) :
    ∃ front behind, cs = front ++ b.closing :: behind ∧ offset + byteLength front = i ∧
      ∀ more, checkFrom mode stack offset (front ++ b.closing :: more) = .invalid b i := by
  induction cs generalizing mode stack offset with
  | nil => exact absurd invalid checkFrom_nil_ne_invalid
  | cons c cs ih =>
    obtain ⟨mode', stack', goesOn⟩ | ⟨b', named, ends⟩ := checkFrom_cons mode stack offset c
    · obtain ⟨front, behind, rfl, place, final⟩ := ih (goesOn cs ▸ invalid)
      refine ⟨c :: front, behind, rfl, by rw [byteLength_cons, ← Nat.add_assoc, place], ?_⟩
      intro more
      rw [List.cons_append, goesOn, final]
    · rw [ends] at invalid
      cases invalid
      exact ⟨[], cs, by rw [named]; rfl, rfl, fun more => by rw [List.nil_append, ← named, ends]⟩

/-- An unmatched bracket is final. -/
theorem checkFrom_append_of_invalid (invalid : checkFrom mode stack offset cs = .invalid b i)
    (more : List Char) : checkFrom mode stack offset (cs ++ more) = .invalid b i := by
  obtain ⟨front, behind, rfl, -, final⟩ := exists_unmatched invalid
  rw [List.append_assoc, List.cons_append, final]

/-- What closes all that is open. -/
def closers (stack : List Bracket) : List Char := stack.map Bracket.closing

theorem checkFrom_closers (stack : List Bracket) (offset : Nat) :
    checkFrom .code stack offset (closers stack) = .valid := by
  induction stack generalizing offset with
  | nil => rfl
  | cons b stack ih =>
    cases b with
    | round => exact ih _
    | square => exact ih _

/-- What leads back to the code. -/
def Mode.leave : Mode → List Char
  | .code => []
  | .comment => ['\n']
  | .string => ['"']
  | .escape => ['"', '"']

theorem checkFrom_leave (mode : Mode) (stack : List Bracket) (offset : Nat) :
    checkFrom mode stack offset (mode.leave ++ closers stack) = .valid := by
  cases mode with
  | code => exact checkFrom_closers stack _
  | comment => exact checkFrom_closers stack _
  | string => exact checkFrom_closers stack _
  | escape => exact checkFrom_closers stack _

/-- A text without an unmatched bracket can be completed. -/
theorem exists_completion (offset : Nat)
    (closes : ∀ b i, checkFrom mode stack offset cs ≠ .invalid b i) :
    ∃ more, checkFrom mode stack offset (cs ++ more) = .valid := by
  induction cs generalizing mode stack offset with
  | nil => exact ⟨mode.leave ++ closers stack, checkFrom_leave mode stack offset⟩
  | cons c cs ih =>
    obtain ⟨mode', stack', goesOn⟩ | ⟨b, -, ends⟩ := checkFrom_cons mode stack offset c
    · obtain ⟨more, valid⟩ := ih (offset + c.utf8Size) fun b i => goesOn cs ▸ closes b i
      exact ⟨more, by rw [List.cons_append, goesOn, valid]⟩
    · exact absurd (ends cs) (closes b offset)

end Balance

/-! ## Backspaces -/

namespace Text.Cutting

/-- A backspace that has been cut off stands alone, and its class is seen as long as it is last. -/
structure Parted (s : Cutting) : Prop where
  alone : ∀ cluster ∈ s.clusters, backspace ∈ cluster → cluster = [backspace]
  last : ∀ rest, s.clusters = [backspace] :: rest → s.classes.head? = some .control

variable {s : Cutting}

theorem joins_control (before : List BreakClass) : joins before .control = false := by
  cases before with
  | nil => rfl
  | cons last earlier => cases last <;> rfl

theorem joins_of_control {before : List BreakClass} (control : before.head? = some .control)
    (next : BreakClass) : joins before next = false := by
  cases before with
  | nil => rfl
  | cons last earlier =>
    cases control
    rfl

theorem Parted.step (parted : s.Parted) (c : Char) : (s.step c).Parted := by
  by_cases same : c = backspace
  · subst same
    have cut : s.step backspace = ⟨.control :: s.classes, [backspace] :: s.clusters⟩ := by
      have control : breakClass backspace = .control := by decide
      simp [Cutting.step, control, joins_control]
    rw [cut]
    refine ⟨?_, fun _ _ => rfl⟩
    rintro cluster (_ | member)
    · exact fun _ => rfl
    · exact parted.alone cluster (by assumption)
  · simp only [Cutting.step]
    split
    · next cluster rest joined clusters =>
      -- nothing joins the cluster of a backspace
      have without : backspace ∉ cluster := by
        intro inside
        have member : cluster ∈ s.clusters := by simp [clusters]
        have last := parted.last rest (parted.alone cluster member inside ▸ clusters)
        simp [joins_of_control last] at joined
      refine ⟨?_, ?_⟩
      · intro other member inside
        obtain rfl | member := List.mem_cons.mp member
        · simp [without, Ne.symm same] at inside
        · exact parted.alone other (by simp [clusters, member]) inside
      · rintro _ ⟨⟩
        exact absurd rfl same
    · refine ⟨?_, ?_⟩
      · intro other member inside
        obtain rfl | member := List.mem_cons.mp member
        · simp [Ne.symm same] at inside
        · exact parted.alone other member inside
      · rintro _ ⟨⟩
        exact absurd rfl same

theorem Parted.foldl (parted : s.Parted) (cs : List Char) : (cs.foldl Cutting.step s).Parted := by
  induction cs generalizing s with
  | nil => exact parted
  | cons c cs ih => exact ih (parted.step c)

end Text.Cutting

/-- No cluster holds a backspace and something else. -/
theorem Text.eq_backspace_of_mem_clusters {cs cluster : List Char} (member : cluster ∈ clusters cs)
    (inside : backspace ∈ cluster) : cluster = [backspace] := by
  have start : Cutting.Parted ⟨[], []⟩ := ⟨by simp, by simp⟩
  obtain ⟨kept, found, rfl⟩ := List.mem_map.mp (List.mem_reverse.mp member)
  have alone := (start.foldl cs).alone kept found (List.mem_reverse.mp inside)
  rw [alone]
  rfl

namespace Typed

variable {t : Typed}

theorem mem_of_mem_dropBytes {c : Char} {n : Nat} {cs : List Char} (member : c ∈ dropBytes n cs) :
    c ∈ cs := by
  induction n, cs using dropBytes.induct with
  | case1 cs => simpa [dropBytes] using member
  | case2 n => simp [dropBytes] at member
  | case3 n d cs ih =>
    rw [dropBytes] at member
    exact List.mem_cons_of_mem _ (ih member)

theorem notMem_step (without : backspace ∉ t.text) {cluster : List Char}
    (alone : backspace ∈ cluster → cluster = [backspace]) : backspace ∉ (t.step cluster).text := by
  by_cases back : cluster = [backspace]
  · rw [step, if_pos back, takeBack]
    split
    · exact without
    · exact mt mem_of_mem_dropBytes without
  · rw [step, if_neg back, put]
    simpa [without] using mt alone back

/-- A backspace takes back and is not kept, so none is left. -/
theorem notMem_corrected (cs : List Char) : backspace ∉ corrected cs := by
  have run (clusters : List (List Char)) (t : Typed) (without : backspace ∉ t.text)
      (alone : ∀ cluster ∈ clusters, backspace ∈ cluster → cluster = [backspace]) :
      backspace ∉ (clusters.foldl step t).text := by
    induction clusters generalizing t with
    | nil => exact without
    | cons cluster clusters ih =>
      rw [List.forall_mem_cons] at alone
      exact ih _ (notMem_step without alone.1) alone.2
  rw [corrected_eq_replay, replay, List.mem_reverse]
  exact run _ _ (by simp) fun cluster => Text.eq_backspace_of_mem_clusters

end Typed

/-! ## What is gathered -/

namespace Entry

open Balance

variable {gathered line text kept : List Char} {lines : List (List Char)} {b : Bracket} {i : Nat}

/-- Only the end of the last line is taken off. -/
theorem exists_splitEnd (cs : List Char) : ∃ ending, cs = (splitEnd cs).1 ++ ending ∧
    ∀ c ∈ ending, c = '\r' ∨ c = '\n' := by
  have turn : cs = cs.reverse.reverse := (List.reverse_reverse cs).symm
  unfold splitEnd
  split
  · next body ends => exact ⟨['\r', '\n'], by rw [turn, ends]; simp, by simp⟩
  · next body _ ends => exact ⟨['\n'], by rw [turn, ends]; simp, by simp⟩
  · exact ⟨[], (List.append_nil cs).symm, by simp⟩

/-- What ends in a bracket is not touched when the end of the line is taken off. -/
theorem prefix_splitEnd {front cs : List Char} (starts : front ++ [b.closing] <+: cs) :
    front ++ [b.closing] <+: (splitEnd cs).1 := by
  obtain ⟨ending, split, ends⟩ := exists_splitEnd cs
  have visible : b.closing ∉ ending := by
    intro member
    have layout := ends _ member
    revert layout
    cases b <;> decide
  obtain ⟨behind, whole⟩ := starts
  obtain ⟨more, inside, -⟩ | ⟨more, beyond, rest⟩ :=
    List.append_eq_append_iff.mp (whole.trans split)
  · exact ⟨more, inside.symm⟩
  · obtain rfl | ⟨more, last, rfl⟩ := List.eq_nil_or_concat more
    · exact ⟨[], by rw [beyond, List.append_nil, List.append_nil]⟩
    · -- the bracket would belong to the end of the line
      rw [List.concat_eq_append, ← List.append_assoc] at beyond
      obtain ⟨-, same⟩ := List.append_inj' beyond rfl
      cases same
      exact absurd (by simp [rest]) visible

theorem text_absorb (gathered line : List Char) :
    (absorb gathered line).1.text = Typed.corrected (splitEnd (gathered ++ line)).1 := rfl

theorem verdict_absorb (gathered line : List Char) :
    (absorb gathered line).1.verdict = check (absorb gathered line).1.text := rfl

theorem checksFrom_cons (gathered line : List Char) (lines : List (List Char)) :
    checksFrom gathered (line :: lines) =
      (absorb gathered line).1 :: checksFrom (absorb gathered line).2 lines := rfl

/-- A text with an unmatched bracket is gathered as it was checked. -/
theorem kept_of_invalid (invalid : (absorb gathered line).1.verdict = .invalid b i) :
    (absorb gathered line).2 = (absorb gathered line).1.text := by
  rw [verdict_absorb] at invalid
  simp only [absorb] at invalid ⊢
  rw [invalid]

/-- Checks come after one that found an unmatched bracket: each checks the text of that one with the
lines after it. -/
theorem later_eq {front later : List Check}
    (checked : checksFrom gathered lines = front ++ ⟨text, .invalid b i⟩ :: later) :
    check text = .invalid b i ∧ backspace ∉ text ∧
      later = checksFrom text (lines.drop (front.length + 1)) := by
  induction front generalizing gathered lines with
  | nil =>
    cases lines with
    | nil => cases checked
    | cons line lines =>
      rw [checksFrom_cons] at checked
      obtain ⟨first, rest⟩ := List.cons.inj checked
      have same : (absorb gathered line).1.text = text := congrArg Check.text first
      have invalid : (absorb gathered line).1.verdict = .invalid b i := congrArg Check.verdict first
      have kept := kept_of_invalid invalid
      rw [same] at kept
      refine ⟨?_, ?_, ?_⟩
      · rw [← same, ← verdict_absorb, invalid]
      · rw [← same, text_absorb]
        exact Typed.notMem_corrected _
      · rw [← rest, kept]
        rfl
  | cons first front ih =>
    cases lines with
    | nil => cases checked
    | cons line lines => exact ih (List.cons.inj checked).2

/-- Lines without a backspace leave an unmatched bracket where it is. -/
theorem prefix_of_mem_checksFrom {front : List Char}
    (final : ∀ more, check (front ++ b.closing :: more) = .invalid b i)
    (starts : front ++ [b.closing] <+: text) (corrected : backspace ∉ text)
    (plain : ∀ line ∈ lines, backspace ∉ line) :
    ∀ later ∈ checksFrom text lines, front ++ [b.closing] <+: later.text := by
  induction lines generalizing text with
  | nil => simp [checksFrom]
  | cons line lines ih =>
    rw [List.forall_mem_cons] at plain
    obtain ⟨ending, split, -⟩ := exists_splitEnd (text ++ line)
    have without : backspace ∉ (splitEnd (text ++ line)).1 := by
      intro member
      have inside : backspace ∈ text ++ line := by
        rw [split]
        exact List.mem_append_left _ member
      simp [corrected, plain.1] at inside
    have next : (absorb text line).1.text = (splitEnd (text ++ line)).1 := if_neg without
    have starts' : front ++ [b.closing] <+: (absorb text line).1.text := by
      rw [next]
      exact prefix_splitEnd (starts.trans (List.prefix_append _ _))
    have invalid : (absorb text line).1.verdict = .invalid b i := by
      obtain ⟨more, whole⟩ := starts'
      rw [verdict_absorb, ← whole, List.append_assoc]
      exact final more
    rw [checksFrom_cons, List.forall_mem_cons, kept_of_invalid invalid]
    exact ⟨starts', ih starts' (next ▸ without) plain.2⟩

theorem verdict_of_mem_checksFrom {made : Check} (member : made ∈ checksFrom gathered lines) :
    made.verdict = check made.text := by
  induction lines generalizing gathered with
  | nil => cases member
  | cons line lines ih =>
    rw [checksFrom_cons] at member
    obtain rfl | member := List.mem_cons.mp member
    · exact verdict_absorb gathered line
    · exact ih member

theorem complete_append (front later : List Check) :
    complete (front ++ later) = complete front ++ complete later := by
  rw [complete, List.filter_append, List.map_append]
  rfl

theorem complete_eq_nil {checks : List Check} (invalid : ∀ check ∈ checks, check.verdict ≠ .valid) :
    complete checks = [] := by
  rw [complete, List.filter_eq_nil_iff.mpr]
  · rfl
  · simpa using invalid

end Entry

namespace Repl

open Entry Balance

/-- What is written for entries, none of which asks to leave. -/
def answers (s : Session) : List (List Char) → List Line
  | [] => []
  | entry :: rest =>
    (takeEntry s entry).1 ++ answers ((takeEntry s entry).2.getD s) rest

/-- If no entry asks to leave, the input is read to its end. -/
theorem takeEntries_eq (s : Session) {entries : List (List Char)}
    (stays : ∀ entry ∈ entries, isExit (Text.trim entry) = false) :
    takeEntries s entries = answers s entries ++ farewell := by
  induction entries generalizing s with
  | nil => rfl
  | cons entry entries ih =>
    rw [List.forall_mem_cons] at stays
    obtain ⟨written, session, taken⟩ :
        ∃ written session, takeEntry s entry = (written, some session) := by
      by_cases empty : (Text.trim entry).isEmpty
      · exact ⟨[], s, by rw [takeEntry, if_pos empty]⟩
      · exact ⟨_, _, takeEntry_of_proper s (by simpa using empty) stays.1⟩
    rw [answers, takeEntries, taken]
    exact (congrArg (written ++ ·) (ih session stays.2)).trans (List.append_assoc ..).symm

/-- The three verdicts on a text: an unmatched bracket is final, and what is incomplete can be
completed. Where the loop has found an unmatched bracket, every later check whose text still begins
with what stands up to the bracket finds it again; if no later line holds a backspace, these are all
later checks. If they are, the loop answers the entries found complete before, and no more. -/
theorem unmatched_is_final :
    (∀ cs b i, check cs = .invalid b i → ∀ more, check (cs ++ more) = .invalid b i) ∧
    (∀ cs, check cs = .incomplete → ∃ more, check (cs ++ more) = .valid) ∧
    ∀ (input : String) (front : List Check) (text : List Char) (b : Bracket) (i : Nat)
      (later : List Check), checks input.toList = front ++ ⟨text, .invalid b i⟩ :: later →
      ∃ before behind, text = before ++ b.closing :: behind ∧ byteLength before = i ∧
        (∀ made ∈ later, before ++ [b.closing] <+: made.text → made.verdict = .invalid b i) ∧
        ((∀ line ∈ (lines input.toList).drop (front.length + 1), backspace ∉ line) →
          ∀ made ∈ later, before ++ [b.closing] <+: made.text) ∧
        ((∀ made ∈ later, before ++ [b.closing] <+: made.text) →
          (∀ entry ∈ complete front, isExit (Text.trim entry) = false) →
          Line.outputText (transcript input) = Line.outputText
            (banner ++ answers (.fresh defaultMaxDepth) (complete front) ++ farewell)) := by
  refine ⟨fun cs b i => checkFrom_append_of_invalid, ?_, ?_⟩
  · intro cs incomplete
    refine exists_completion 0 fun b i invalid => ?_
    rw [check, invalid] at incomplete
    cases incomplete
  · intro input front text b i later checked
    obtain ⟨invalid, corrected, rest⟩ := later_eq checked
    obtain ⟨before, behind, rfl, place, final⟩ := exists_unmatched invalid
    rw [Nat.zero_add] at place
    have found : ∀ made ∈ later, before ++ [b.closing] <+: made.text →
        made.verdict = .invalid b i := by
      rintro made member ⟨more, whole⟩
      rw [rest] at member
      rw [verdict_of_mem_checksFrom member, ← whole, List.append_assoc]
      exact final more
    refine ⟨before, behind, rfl, place, found, ?_, ?_⟩
    · intro plain
      rw [rest]
      exact prefix_of_mem_checksFrom final ⟨behind, by simp⟩ corrected plain
    · intro kept stays
      have differ : Verdict.invalid b i ≠ .valid := by simp
      have none : complete (⟨before ++ b.closing :: behind, .invalid b i⟩ :: later) = [] := by
        refine complete_eq_nil (List.forall_mem_cons.mpr ⟨differ, fun made member => ?_⟩)
        rw [found made member (kept made member)]
        exact differ
      have entries : complete (checks input.toList) = complete front := by
        rw [checked, complete_append, none, List.append_nil]
      rw [outputText_transcript, entries, takeEntries_eq _ stays, List.append_assoc,
        Line.outputText_append banner]

/-- A boolean is an entry that answers for itself. -/
theorem outputText_answers_true :
    Line.outputText (answers (.fresh defaultMaxDepth) ["#t".toList]) = "#t\n" := by
  have read : Reader.readAll defaultMaxDepth (scan (String.ofList (Text.trim "#t".toList))) =
      [.ok (.atom ⟨0, 2⟩ (.boolean true))] := by cbv
  have ran : (Session.fresh defaultMaxDepth).run (String.ofList (Text.trim "#t".toList)) =
      (Session.fresh defaultMaxDepth).runRead [.ok (.atom ⟨0, 2⟩ (.boolean true))] :=
    congrArg _ read
  rw [answers, answers, List.append_nil, takeEntry_of_proper _ (by decide +kernel) (by cbv),
    Run.outputText_lines, ran]
  rfl

/-- One entry is answered before the bracket comes, and no other is taken. -/
theorem unmatched_is_final_behind_entry :
    (∀ more, check ("(]".toList ++ more) = .invalid .square 1) ∧
      (∃ more, check ("(\"\\".toList ++ more) = .valid) ∧
      (∀ made ∈ (checks "#t\n(]\n)\n#f\n".toList).drop 1, made.verdict = .invalid .square 1) ∧
      Line.outputText (transcript "#t\n(]\n)\n#f\n") =
        Line.outputText banner ++ "#t\n" ++ Line.outputText farewell := by
  obtain ⟨final, completes, loop⟩ := unmatched_is_final
  have checked : checks "#t\n(]\n)\n#f\n".toList =
      [⟨"#t".toList, .valid⟩] ++ ⟨"(]".toList, .invalid .square 1⟩ ::
        [⟨"(])".toList, .invalid .square 1⟩, ⟨"(])#f".toList, .invalid .square 1⟩] := by cbv
  obtain ⟨before, behind, -, -, found, plain, output⟩ := loop _ _ _ _ _ _ checked
  have kept := plain (by decide +kernel)
  refine ⟨final _ _ _ rfl, completes _ rfl, ?_, ?_⟩
  · rw [checked]
    change ∀ made ∈ _ :: _, _
    rw [List.forall_mem_cons]
    exact ⟨rfl, fun made member => found made member (kept made member)⟩
  · rw [output kept (by decide +kernel), Line.outputText_append, Line.outputText_append]
    exact congrArg (_ ++ · ++ _) outputText_answers_true

/-- A backspace at the start of a line takes back the bracket that closes nothing. What follows on
it is an entry, and answered. -/
theorem unmatched_taken_back :
    checks ")\n\x08#t\n".toList = [⟨[')'], .invalid .round 0⟩, ⟨"#t".toList, .valid⟩] ∧
      Line.outputText (transcript ")\n\x08#t\n") =
        Line.outputText banner ++ "#t\n" ++ Line.outputText farewell := by
  have checked : checks ")\n\x08#t\n".toList =
      [⟨[')'], .invalid .round 0⟩, ⟨"#t".toList, .valid⟩] := by cbv
  have entries : complete (checks ")\n\x08#t\n".toList) = ["#t".toList] := by
    rw [checked]
    rfl
  refine ⟨checked, ?_⟩
  rw [outputText_transcript, entries, takeEntries_eq _ (by decide +kernel), Line.outputText_append,
    outputText_answers_true, String.append_assoc]

end Repl
end MiniScheme
