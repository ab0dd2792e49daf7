import MiniScheme.Diagnostic
import MiniScheme.Proofs.Datum.Blame
import MiniScheme.Proofs.Token.Coverage

/-!
# Where a diagnostic points

A reading error names an item of the text by its span, which counts bytes, and by its line, which
counts newlines. What is shown of it is a place in the same text, which counts characters and knows
other ends of lines. Both are the same exactly if the text before the item is of one-byte characters
and its lines end at newlines alone; otherwise another place is shown, or, if the text has too few
characters, none.
-/
namespace MiniScheme

section Reported

/-- What the error names. An error about an empty text names nothing. -/
def ReadError.item? : ReadError → Option Item
  | .unexpected t _ | .unclosed t _ | .nothingBeforeDot t | .nothingAfterQuote t | .tooDeep t _ =>
    some (.ok t)
  | .lexical e => some (.error e)
  | .emptyInput => none

/-- The ways in which a reading error of a text comes to light. -/
inductive Reported (source : String) : ReadError → Prop where
  | tokenize {e : LexicalError} (failed : tokenize source = .error e) :
      Reported source (.lexical e)
  | parse {e : ReadError} (failed : Datum.parse source = .error e) : Reported source e
  | parseAll {e : ReadError} (failed : Datum.parseAll source = .error e) : Reported source e
  | run {e : ReadError} (s : Session) (stopped : (s.run source).stopped = some (.read e)) :
      Reported source e

variable {e : ReadError} {item : Item} {items : List Item}

theorem Reader.mem_of_blames {limit : Nat} {consumed rest : List Item}
    (blames : Blames limit consumed rest e) (named : e.item? = some item) : item ∈ consumed := by
  cases e with
  | unexpected t | nothingBeforeDot t | tooDeep t =>
    cases named
    obtain ⟨p, rfl, -⟩ := blames
    simp
  | lexical e =>
    cases named
    obtain ⟨p, rfl, -⟩ := blames
    simp
  | unclosed t | nothingAfterQuote t =>
    cases named
    obtain ⟨p, rfl, -, -, -, before, after, rfl, -⟩ := blames
    simp
  | emptyInput => cases named

theorem Reader.mem_of_read {limit : Nat} {rest : List Item}
    (failure : read limit items = (.error e, rest)) (named : e.item? = some item) :
    item ∈ items := by
  by_cases empty : items = []
  · subst empty
    cases failure
    cases named
  · obtain ⟨consumed, rfl, blames⟩ := read_blames empty failure
    exact List.mem_append_left rest (mem_of_blames blames named)

theorem Reader.mem_of_readAll {limit : Nat} (failure : .error e ∈ readAll limit items)
    (named : e.item? = some item) : item ∈ items := by
  fun_induction readAll limit items with
  | case1 => cases failure
  | case2 first rest result e' error =>
    cases List.mem_singleton.mp failure
    exact mem_of_read (Prod.ext error rfl) named
  | case3 first rest result d ok ih =>
    obtain same | later := List.mem_cons.mp failure
    · cases same
    · obtain ⟨consumed, split⟩ := read_consumes limit (first :: rest)
      rw [split]
      exact List.mem_append_right consumed (ih later)

theorem Scan.mem_of_allTokens {e : LexicalError} (failed : allTokens items = .error e) :
    .error e ∈ items := by
  induction items with
  | nil => cases failed
  | cons first rest ih =>
    cases first with
    | error e' =>
      cases failed
      exact List.mem_cons_self
    | ok t => exact List.mem_cons_of_mem _ (ih (of_map_eq_error failed))

theorem mem_of_mapM_eq_error {α ε : Type} {e : ε} {xs : List (Except ε α)}
    (failed : xs.mapM id = .error e) : .error e ∈ xs := by
  induction xs with
  | nil => cases failed
  | cons x xs ih =>
    rw [List.mapM_cons] at failed
    cases x with
    | error e' =>
      cases failed
      exact List.mem_cons_self
    | ok a =>
      refine List.mem_cons_of_mem _ (ih ?_)
      cases rest : xs.mapM id with
      | error e' =>
        rw [rest] at failed
        cases failed
        rfl
      | ok as =>
        rw [rest] at failed
        cases failed

theorem Session.mem_of_runRead {s : Session} {results : List (Except ReadError Datum)}
    (stopped : (s.runRead results).stopped = some (.read e)) : .error e ∈ results := by
  fun_induction runRead s results with
  | case1 => cases stopped
  | case2 =>
    cases stopped
    exact List.mem_cons_self
  | case3 s d rest v s' given run ih => exact List.mem_cons_of_mem _ (ih stopped)
  | case4 => cases stopped
  | case5 s d rest e' s' given notInternal run ih => exact List.mem_cons_of_mem _ (ih stopped)
  | case6 => cases stopped

/-- Whatever is reported names an item of the text. -/
theorem Reported.mem_scan {source : String} (reported : Reported source e)
    (named : e.item? = some item) : item ∈ scan source := by
  cases reported with
  | tokenize failed =>
    cases named
    exact Scan.mem_of_allTokens failed
  | parse failed =>
    unfold Datum.parse at failed
    split at failed
    · next e' rest failure =>
      cases failed
      exact Reader.mem_of_read failure named
    · cases failed
    · next d e' rest success =>
      cases failed
      cases named
      obtain ⟨consumed, split⟩ := Reader.read_consumes defaultMaxDepth (scan source)
      rw [split, success]
      simp
    · next d t rest success =>
      cases failed
      cases named
      obtain ⟨consumed, split⟩ := Reader.read_consumes defaultMaxDepth (scan source)
      rw [split, success]
      simp
  | parseAll failed => exact Reader.mem_of_readAll (mem_of_mapM_eq_error failed) named
  | run s stopped => exact Reader.mem_of_readAll (Session.mem_of_runRead stopped) named

theorem ReadError.span_diagnostic (shown : String) (named : e.item? = some item) :
    (e.diagnostic shown).span = item.span := by
  cases e with
  | emptyInput => cases named
  | _ =>
    cases named
    rfl

end Reported

/-- An item of a run stands somewhere in the text. -/
theorem Scan.Tiles.stands {before cs : List Char} {items : List Item} {item : Item}
    (tiles : Tiles before cs items) (member : item ∈ items) :
    ∃ front text back, before ++ cs = front ++ (text ++ back) ∧ text ≠ [] ∧
      Stands front text item := by
  induction tiles with
  | finish => cases member
  | skip layout later ih =>
    rw [← List.append_assoc]
    exact ih member
  | take some stands later ih =>
    obtain rfl | rest := List.mem_cons.mp member
    · exact ⟨_, _, _, rfl, some, stands⟩
    · rw [← List.append_assoc]
      exact ih rest

namespace Place

/-- The place after a text, if newlines alone end its lines. -/
def after (before : List Char) : Place :=
  ⟨1 + before.count '\n', 1 + (before.reverse.takeWhile (· ≠ '\n')).length⟩

/-- Where a line ends in a text with `rest` after it, it ends at a newline. -/
def NewlinesOnly (before rest : List Char) : Prop :=
  ∀ front c back, before = front ++ c :: back → endsLine c (back ++ rest) → c = '\n'

variable {before rest : List Char}

theorem forward_add (p : Place) (m n : Nat) (cs : List Char) :
    forward p (m + n) cs = forward (forward p m cs) n (cs.drop m) := by
  induction m generalizing p cs with
  | zero => simp [forward]
  | succ m ih =>
    rw [Nat.add_right_comm]
    cases cs with
    | nil =>
      cases n with
      | zero => rfl
      | succ n => simp [forward]; omega
    | cons c cs =>
      simp only [forward, List.drop_succ_cons]
      split
      · exact ih _ cs
      · exact ih _ cs

/-- Further on in a text is further down, or further to the right on the same line. -/
theorem forward_later (p : Place) (n : Nat) (cs : List Char) :
    p.line < (forward p n cs).line ∨
      (forward p n cs).line = p.line ∧ (forward p n cs).column = p.column + n := by
  fun_induction forward p n cs with
  | case1 => exact .inr ⟨rfl, rfl⟩
  | case2 => exact .inr ⟨rfl, rfl⟩
  | case3 p n c cs ends ih =>
    simp only at ih
    omega
  | case4 p n c cs inside ih =>
    simp only at ih
    omega

theorem ofOffset_snoc (before : List Char) (c : Char) (rest : List Char) :
    ofOffset (before ++ [c] ++ rest) (before ++ [c]).length =
      let p := ofOffset (before ++ c :: rest) before.length
      if endsLine c rest then ⟨p.line + 1, 1⟩ else ⟨p.line, p.column + 1⟩ := by
  rw [List.append_assoc, List.singleton_append, List.length_append, ofOffset, forward_add,
    List.drop_left, List.length_singleton]
  rfl

theorem endsLine_newline (more : rest ≠ []) : endsLine '\n' rest := by
  obtain ⟨c, cs, rfl⟩ := List.exists_cons_of_ne_nil more
  rfl

theorem newlinesOnly_snoc {c : Char} : NewlinesOnly (before ++ [c]) rest ↔
    NewlinesOnly before (c :: rest) ∧ (endsLine c rest → c = '\n') := by
  constructor
  · intro only
    refine ⟨?_, only before c [] rfl⟩
    rintro front d back rfl ends
    apply only front d (back ++ [c]) (by simp)
    simpa using ends
  · rintro ⟨only, last⟩ front d back split ends
    rcases List.eq_nil_or_concat back with rfl | ⟨back', d', rfl⟩
    · obtain ⟨rfl, same⟩ := List.append_inj' split rfl
      cases same
      exact last ends
    · rw [List.concat_eq_append] at split ends
      rw [← List.cons_append, ← List.append_assoc] at split
      obtain ⟨rfl, same⟩ := List.append_inj' split rfl
      cases same
      exact only front d back' rfl (by simpa using ends)

theorem after_snoc (before : List Char) (c : Char) :
    after (before ++ [c]) =
      if c = '\n' then ⟨(after before).line + 1, 1⟩
      else ⟨(after before).line, (after before).column + 1⟩ := by
  by_cases newline : c = '\n'
  · simp [after, newline, Nat.add_assoc]
  · simp [after, newline, Nat.add_comm]

/-- A line ends at every newline. -/
theorem line_after_le (more : rest ≠ []) :
    (after before).line ≤ (ofOffset (before ++ rest) before.length).line := by
  induction before using List.reverseRecOn generalizing rest with
  | nil => exact Nat.le_refl _
  | append_singleton before c ih =>
    have front := ih (List.cons_ne_nil c rest)
    rw [ofOffset_snoc, after_snoc]
    by_cases newline : c = '\n'
    · subst newline
      simp only [endsLine_newline more, if_true]
      omega
    · simp only [newline, if_false]
      split
      · simp only
        omega
      · exact front

theorem ofOffset_of_newlinesOnly (more : rest ≠ []) (only : NewlinesOnly before rest) :
    ofOffset (before ++ rest) before.length = after before := by
  induction before using List.reverseRecOn generalizing rest with
  | nil => rfl
  | append_singleton before c ih =>
    obtain ⟨front, last⟩ := newlinesOnly_snoc.mp only
    rw [ofOffset_snoc, after_snoc, ih (List.cons_ne_nil c rest) front]
    by_cases newline : c = '\n'
    · subst newline
      simp [endsLine_newline more]
    · have inside : endsLine c rest = false := by simpa using mt last newline
      simp [newline, inside]

theorem newlinesOnly_of_line (more : rest ≠ [])
    (same : (ofOffset (before ++ rest) before.length).line = (after before).line) :
    NewlinesOnly before rest := by
  induction before using List.reverseRecOn generalizing rest with
  | nil =>
    intro front c back split
    simp at split
  | append_singleton before c ih =>
    have least := @line_after_le before (c :: rest) (List.cons_ne_nil c rest)
    rw [ofOffset_snoc, after_snoc] at same
    by_cases newline : c = '\n'
    · subst newline
      simp only [endsLine_newline more, if_true] at same
      exact newlinesOnly_snoc.mpr ⟨ih (List.cons_ne_nil _ rest) (by omega), fun _ => rfl⟩
    · -- no line can end at any other character, for the newlines before it are all counted
      have inside : ¬ endsLine c rest := by
        intro ends
        simp only [newline, ends, if_true, if_false] at same
        omega
      simp only [newline, inside, if_false] at same
      refine newlinesOnly_snoc.mpr ⟨ih (List.cons_ne_nil c rest) same, ?_⟩
      exact fun ends => absurd ends inside

/-- Of all places from the end of `before` on, only that end itself can be the place that newlines
alone would give. -/
theorem ofOffset_eq_after_iff {n : Nat} (more : rest ≠ []) (behind : before.length ≤ n) :
    ofOffset (before ++ rest) n = after before ↔ n = before.length ∧ NewlinesOnly before rest := by
  constructor
  · intro same
    obtain ⟨k, rfl⟩ := Nat.exists_eq_add_of_le behind
    have least := @line_after_le before rest more
    have later := forward_later (ofOffset (before ++ rest) before.length) k rest
    have further : ofOffset (before ++ rest) (before.length + k) =
        forward (ofOffset (before ++ rest) before.length) k rest := by
      rw [ofOffset, forward_add, List.drop_left]
      rfl
    rw [← further, same] at later
    have only : NewlinesOnly before rest := newlinesOnly_of_line more (by omega)
    rw [ofOffset_of_newlinesOnly more only] at later
    exact ⟨by omega, only⟩
  · rintro ⟨rfl, only⟩
    exact ofOffset_of_newlinesOnly more only

end Place

theorem byteLength_eq_length_iff (cs : List Char) :
    byteLength cs = cs.length ↔ ∀ c ∈ cs, c.utf8Size = 1 := by
  induction cs with
  | nil => simp
  | cons c cs ih =>
    have wide := c.utf8Size_pos
    have least := length_le_byteLength cs
    rw [List.forall_mem_cons, ← ih, List.length_cons, byteLength_cons]
    omega

/-- A span that lies in the shown text is not cut. -/
theorem Diagnostic.clamp_of_le {shown : String} {s : Span} (ordered : s.start ≤ s.stop)
    (inside : s.stop ≤ shown.utf8ByteSize) : clamp shown s = s := by
  simp [clamp, Nat.min_eq_left ordered, Nat.min_eq_left inside]

theorem Diagnostic.place?_eq_some_iff {d : Diagnostic} {shown : String} {p : Place}
    (ordered : d.span.start < d.span.stop) (inside : d.span.stop ≤ shown.utf8ByteSize) :
    d.place? shown = some p ↔
      d.span.stop ≤ shown.length + 1 ∧ Place.ofOffset shown.toList d.span.start = p := by
  rw [place?, clamp_of_le ordered.le inside]
  split
  · simp only [reduceCtorEq, false_iff, not_and]
    omega
  · simp only [Option.some.injEq, iff_and_self]
    omega

/-- The span of an error begins between two characters of the text it is about. The line of the
error counts the newlines before. That line is shown, with the column that counts the characters
since the last newline, exactly if all characters before have one byte, newlines alone end lines
there, and the text has enough characters for the bytes of the span. -/
theorem Reported.place?_eq_iff {source : String} {e : ReadError} {item : Item}
    (reported : Reported source e) (named : e.item? = some item) :
    (∃ before rest, source.toList = before ++ rest ∧ byteLength before = item.span.start) ∧
    ∀ before rest, source.toList = before ++ rest → byteLength before = item.span.start →
      item.line = 1 + before.count '\n' ∧
      ((e.diagnostic source).place? source =
          some ⟨item.line, 1 + (before.reverse.takeWhile (· ≠ '\n')).length⟩ ↔
        (∀ c ∈ before, c.utf8Size = 1) ∧ Place.NewlinesOnly before rest ∧
          item.span.stop ≤ source.length + 1) := by
  have tiles : Scan.Tiles [] source.toList (scan source) :=
    (Scan.munched_itemsOnto [] source.toList).tiles
  obtain ⟨front, text, back, placed, visible, stands⟩ := tiles.stands (reported.mem_scan named)
  rw [List.nil_append] at placed
  have start : byteLength front = item.span.start := by rw [stands.span]
  have stop : byteLength front + byteLength text = item.span.stop := by
    rw [stands.span, byteLength_append]
  refine ⟨⟨front, text ++ back, placed, start⟩, ?_⟩
  intro before rest split starts
  obtain ⟨rfl, rfl⟩ := append_inj_of_byteLength (split.symm.trans placed) (starts.trans start.symm)
  refine ⟨stands.line, ?_⟩
  have place : (⟨item.line, 1 + (before.reverse.takeWhile (· ≠ '\n')).length⟩ : Place) =
      Place.after before := by
    rw [stands.line, Place.after]
  have span := ReadError.span_diagnostic source named
  have size := Scan.utf8ByteSize_eq source
  rw [split, byteLength_append, byteLength_append] at size
  have wide := Scan.byteLength_lt_append before visible
  rw [byteLength_append] at wide
  rw [place, Diagnostic.place?_eq_some_iff (by rw [span]; omega) (by rw [span]; omega), span, split,
    ← start, Place.ofOffset_eq_after_iff (by simp [visible]) (length_le_byteLength before),
    byteLength_eq_length_iff]
  exact ⟨fun ⟨enough, narrow, only⟩ => ⟨narrow, only, enough⟩,
    fun ⟨narrow, only, enough⟩ => ⟨enough, narrow, only⟩⟩

/-- A bracket of the wrong shape on the second line. -/
theorem Reported.place?_eq_iff_of_bracket :
    let e : ReadError := .unexpected ⟨.closer .square, ⟨4, 5⟩, 2⟩ (.closerOf .round 1)
    Datum.parseAll "(a\n ]" = .error e ∧
      (e.diagnostic "(a\n ]").place? "(a\n ]" = some ⟨2, 2⟩ := by
  intro e
  have failed : Datum.parseAll "(a\n ]" = .error e := by decide +kernel
  refine ⟨failed, ?_⟩
  have narrow := (byteLength_eq_length_iff ['(', 'a', '\n', ' ']).mp rfl
  have only : Place.NewlinesOnly ['(', 'a', '\n', ' '] [']'] :=
    Place.newlinesOnly_of_line (List.cons_ne_nil _ _) rfl
  obtain ⟨-, pointed⟩ := Reported.place?_eq_iff (.parseAll failed) rfl
  exact (pointed _ _ rfl rfl).2.mpr ⟨narrow, only, Nat.le_succ 5⟩

/-- A character of two bytes before the error moves the place shown one column to the right. -/
theorem Reported.place?_after_wide :
    let e : ReadError := .unexpected ⟨.closer .round, ⟨3, 4⟩, 1⟩ .endOfInput
    Datum.parse "é ) z" = .error e ∧ "é ) z".toList = ['é', ' '] ++ [')', ' ', 'z'] ∧
      byteLength ['é', ' '] = 3 ∧ 1 + (['é', ' '].reverse.takeWhile (· ≠ '\n')).length = 3 ∧
      (e.diagnostic "é ) z").place? "é ) z" = some ⟨1, 4⟩ := by
  decide +kernel

end MiniScheme
