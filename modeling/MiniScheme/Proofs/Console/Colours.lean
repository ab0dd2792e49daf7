import MiniScheme.Proofs.Console.Shades

/-!
# The right colours, and nothing but colours

The output is made in one pass, and an opening bracket is coloured only when it is popped, by
putting a longer text in its place. The invariant of the pass (`Painted`) says that the output shows
the characters read, each in the colour that is right so far, and that the brackets on the stack
stand in it where they are looked for. What is put in the place of one bracket comes after all
brackets below it on the stack (`Stands`), so the places of these are not moved.
-/
namespace MiniScheme.Highlight

/-! ## Painted characters -/

/-- The characters, without their colours. -/
def bare (dots : List (Mark × Colour)) : List Mark := dots.map Prod.fst

/-- How characters in their colours are shown. -/
def shown (dots : List (Mark × Colour)) : String :=
  String.join (dots.map fun dot => paint dot.1.char dot.2)

/-- Each of the characters has the colour that is right between all the others. -/
def Shaded (cursor : Nat) (before : List Mark) (dots : List (Mark × Colour)) (after : List Mark) :
    Prop :=
  ∀ l x colour r, dots = l ++ (x, colour) :: r →
    Shade cursor (before ++ bare l) x (bare r ++ after) colour

/-- The open brackets, each with all that came before it at its place, and balanced brackets after
it up to the next. -/
inductive Stands : List Open → List (Mark × Colour) → Prop where
  | none {dots : List (Mark × Colour)} (settled : Settled (bare dots)) : Stands [] dots
  | inside {stack : List Open} {o : Open} {dots inner : List (Mark × Colour)} {x : Mark}
      (below : Stands stack dots) (opens : x.opens? = some o.bracket) (offset : o.offset = x.offset)
      (place : o.place = (shown dots).utf8ByteSize) (balanced : Balanced (bare inner)) :
      Stands (o :: stack) (dots ++ (x, .plain) :: inner)

section Painted

variable {cursor : Nat} {x z : Mark} {before after : List Mark} {stack : List Open} {o : Open}
  {dots more below inner : List (Mark × Colour)}

@[simp] theorem bare_append (dots more : List (Mark × Colour)) :
    bare (dots ++ more) = bare dots ++ bare more := List.map_append

@[simp] theorem bare_cons (x : Mark) (colour : Colour) (dots : List (Mark × Colour)) :
    bare ((x, colour) :: dots) = x :: bare dots := rfl

@[simp] theorem bare_nil : bare [] = [] := rfl

@[simp] theorem shown_append (dots more : List (Mark × Colour)) :
    shown (dots ++ more) = shown dots ++ shown more := by
  rw [shown, List.map_append, String.join_append]
  rfl

@[simp] theorem shown_cons (x : Mark) (colour : Colour) (dots : List (Mark × Colour)) :
    shown ((x, colour) :: dots) = paint x.char colour ++ shown dots := String.join_cons

@[simp] theorem shown_nil : shown [] = "" := rfl

theorem shaded_append :
    Shaded cursor before (dots ++ more) after ↔
      Shaded cursor before dots (bare more ++ after) ∧
        Shaded cursor (before ++ bare dots) more after := by
  constructor
  · intro shaded
    refine ⟨fun l x colour r split => ?_, fun l x colour r split => ?_⟩
    · have := shaded l x colour (r ++ more) (by rw [split, List.append_assoc, List.cons_append])
      rwa [bare_append, List.append_assoc] at this
    · have := shaded (dots ++ l) x colour r (by rw [split, List.append_assoc])
      rwa [bare_append, ← List.append_assoc] at this
  · rintro ⟨first, second⟩ l x colour r split
    obtain ⟨l', rfl, part⟩ | ⟨l', rfl, part⟩ := List.append_eq_append_iff.mp split
    · rw [bare_append, ← List.append_assoc]
      exact second l' x colour r part
    · cases l' with
      | nil =>
        have := second [] x colour r part.symm
        simpa using this
      | cons _ l' =>
        rw [List.cons_append] at part
        obtain ⟨rfl, rfl⟩ := List.cons.inj part
        rw [bare_append, List.append_assoc]
        exact first l x colour l' rfl

theorem shaded_singleton {colour : Colour} :
    Shaded cursor before [(x, colour)] after ↔ Shade cursor before x after colour := by
  constructor
  · intro shaded
    simpa using shaded [] x colour [] rfl
  · intro shade l x' colour' r split
    obtain ⟨rfl, same⟩ | ⟨_, none⟩ := List.singleton_eq_append_iff.mp split
    · cases same
      simpa using shade
    · cases none

/-- The colours stay right when a character is added that pops none of the brackets. -/
theorem Shaded.snoc (shaded : Shaded cursor before dots after)
    (kept : ∀ l x colour r, dots = l ++ (x, colour) :: r → ¬ Pops x (bare r ++ after) z) :
    Shaded cursor before dots (after ++ [z]) := by
  intro l x colour r split
  rw [← List.append_assoc]
  exact (shaded l x colour r split).snoc (kept l x colour r split)

/-- Two brackets are given the colours of their pair when the second of them is added. -/
theorem Shaded.pop (shaded : Shaded cursor [] (below ++ (x, .plain) :: inner) [])
    (pops : Pops x (bare inner) z) :
    Shaded cursor [] (below ++ ([(x, (pairColours cursor x z).1)] ++
      (inner ++ [(z, (pairColours cursor x z).2)]))) [] := by
  obtain ⟨around, rest⟩ := shaded_append.mp shaded
  rw [← List.singleton_append, shaded_append] at rest
  refine shaded_append.mpr ⟨?_, shaded_append.mpr ⟨?_, shaded_append.mpr ⟨?_, ?_⟩⟩⟩
  · -- no bracket before `x` is popped, since `x` is still open where `z` comes
    have kept := around.snoc (z := z) fun l y _ r _ popped => ?_
    · simpa using kept
    · rw [bare_cons, List.append_nil] at popped
      exact absurd pops popped.balanced.settled.not_pops
  · have split : bare (inner ++ [(z, (pairColours cursor x z).2)]) ++ [] = bare inner ++ [z] := by
      simp
    exact shaded_singleton.mpr (.popped split pops)
  · -- none after it either: those have been popped before
    have kept := rest.2.snoc (z := z) fun l y _ r split popped => ?_
    · simpa using kept
    · have settled := pops.balanced.settled
      rw [split, bare_append, bare_cons] at settled
      rw [List.append_nil] at popped
      exact settled.not_pops popped
  · have split : [] ++ bare below ++ bare [(x, (pairColours cursor x z).1)] ++ bare inner =
        bare below ++ x :: bare inner := by simp
    exact shaded_singleton.mpr (.pops split pops)

theorem Stands.append (stands : Stands stack dots) (balanced : Balanced (bare more)) :
    Stands stack (dots ++ more) := by
  cases stands with
  | none settled =>
    refine .none ?_
    rw [bare_append]
    exact settled.append balanced.settled
  | inside below opens offset place inner =>
    rw [List.append_assoc, List.cons_append]
    refine .inside below opens offset place ?_
    rw [bare_append]
    exact inner.append balanced

/-- An open bracket stands plain, right after all that stands before its place. -/
theorem Stands.exists_of_mem (stands : Stands stack dots) (member : o ∈ stack) :
    ∃ l x r, dots = l ++ (x, .plain) :: r ∧ x.opens? = some o.bracket ∧ o.offset = x.offset ∧
      o.place = (shown l).utf8ByteSize := by
  induction stands with
  | none => cases member
  | @inside _ _ dots inner x _ opens offset place _ ih =>
    obtain rfl | deeper := List.mem_cons.mp member
    · exact ⟨dots, x, inner, rfl, opens, offset, place⟩
    · obtain ⟨l, y, r, rfl, known⟩ := ih deeper
      exact ⟨l, y, r ++ (x, .plain) :: inner, by simp, known⟩

end Painted

/-! ## Putting a text in the place of another -/

theorem extract_append (l m r : String) :
    String.Pos.Raw.extract (l ++ m ++ r) ⟨l.utf8ByteSize⟩ ⟨l.utf8ByteSize + m.utf8ByteSize⟩ =
      m := by
  have extracted := String.extract_of_valid l.toList m.toList r.toList
  rwa [String.ofList_append, String.ofList_append, String.ofList_toList, String.ofList_toList,
    String.ofList_toList, String.utf8Len_toList, String.utf8Len_toList] at extracted

/-- What is replaced is all of the text in the middle. -/
theorem replaceRange?_append (l m r new : String) :
    replaceRange? (l ++ m ++ r) l.utf8ByteSize (l.utf8ByteSize + m.utf8ByteSize) new =
      some (l ++ new ++ r) := by
  have start : String.Pos.Raw.IsValid (l ++ m ++ r) ⟨l.utf8ByteSize⟩ :=
    String.Pos.Raw.isValid_iff_exists_append.mpr ⟨l, m ++ r, String.append_assoc, rfl⟩
  have stop : String.Pos.Raw.IsValid (l ++ m ++ r) ⟨l.utf8ByteSize + m.utf8ByteSize⟩ :=
    String.Pos.Raw.isValid_iff_exists_append.mpr
      ⟨l ++ m, r, rfl, by rw [← String.utf8ByteSize_append]; rfl⟩
  have front : String.Pos.Raw.extract (l ++ m ++ r) 0 ⟨l.utf8ByteSize⟩ = l := by
    have extracted := extract_append "" l (m ++ r)
    rwa [String.empty_append, ← String.append_assoc, String.utf8ByteSize_empty,
      Nat.zero_add] at extracted
  have back : String.Pos.Raw.extract (l ++ m ++ r) ⟨l.utf8ByteSize + m.utf8ByteSize⟩
      (l ++ m ++ r).rawEndPos = r := by
    have extracted := extract_append (l ++ m) r ""
    rwa [String.append_empty, ← String.utf8ByteSize_append, String.utf8ByteSize_append] at extracted
  rw [replaceRange?, if_pos ⟨Nat.le_add_right _ _, start, stop⟩]
  dsimp only
  rw [front, back]

/-! ## The pass over a line -/

/-- The output shows the characters read, each in the colour that is right so far, and the open
brackets stand in it. -/
structure Painted (cursor : Nat) (s : State) (dots : List (Mark × Colour)) : Prop where
  output : s.output = shown dots
  stands : Stands s.stack dots
  shaded : Shaded cursor [] dots []

section Pass

variable {cursor : Nat} {s t : State} {c : Char} {o : Open} {x z : Mark} {colour : Colour}
  {below inner dots : List (Mark × Colour)}

/-- A bracket that stands plain at its place is coloured there, and nothing else is changed. -/
theorem repaint?_eq {l r : String} (output : s.output = l ++ paint o.bracket.opening .plain ++ r)
    (place : o.place = l.utf8ByteSize) (colour : Colour) :
    s.repaint? o colour =
      some { s with output := l ++ paint o.bracket.opening colour ++ r } := by
  have size : (paint o.bracket.opening .plain).utf8ByteSize = o.bracket.opening.utf8Size :=
    String.utf8ByteSize_singleton
  rw [State.repaint?, output, place, ← size, replaceRange?_append]
  rfl

theorem Painted.put (painted : Painted cursor s dots)
    (output : t.output = s.output ++ paint z.char colour)
    (stands : Stands t.stack (dots ++ [(z, colour)])) (shade : Shade cursor (bare dots) z [] colour)
    (kept : ∀ front y between, bare dots = front ++ y :: between → ¬ Pops y between z) :
    Painted cursor t (dots ++ [(z, colour)]) := by
  refine ⟨by simp [output, painted.output], stands, ?_⟩
  refine shaded_append.mpr ⟨painted.shaded.snoc fun l y _ r split => ?_, shaded_singleton.mpr shade⟩
  refine kept (bare l) y _ ?_
  simp [split]

/-- A character that is no bracket changes nothing for the brackets. -/
theorem Painted.silent (painted : Painted cursor s dots)
    (output : t.output = s.output ++ paint z.char colour) (stack : t.stack = s.stack)
    (opens : z.opens? = none) (closes : z.closes? = none)
    (shade : Shade cursor (bare dots) z [] colour) : Painted cursor t (dots ++ [(z, colour)]) := by
  refine painted.put output ?_ shade fun _ _ _ _ pops => ?_
  · rw [stack]
    exact painted.stands.append (Balanced.silent opens closes)
  · simpa [closes] using pops.closes

/-- A bracket that pops another gives both their colours. The brackets around the two and between
them keep theirs. -/
theorem Painted.pop (painted : Painted cursor s (below ++ (x, .plain) :: inner))
    (stands : Stands t.stack below) (pops : Pops x (bare inner) z)
    (output : t.output = shown below ++ paint x.char (pairColours cursor x z).1 ++
      (shown inner ++ paint z.char (pairColours cursor x z).2)) :
    Painted cursor t (below ++ ([(x, (pairColours cursor x z).1)] ++
      (inner ++ [(z, (pairColours cursor x z).2)]))) := by
  refine ⟨by simp [output, String.append_assoc], stands.append ?_, painted.shaded.pop pops⟩
  simpa using pops.balanced_all

/-! What one character does, by where it is read and what it is. -/

theorem step?_inside (inside : InString s.mode) :
    step? cursor s c = some ({ s with mode := s.mode.after c }.put c .green) := by
  obtain mode | mode := inside <;> simp [step?, mode]

theorem step?_outside (outside : ¬ InString s.mode) :
    step? cursor s c = stepCode? cursor s c := by
  unfold step?
  split
  · next mode => exact absurd (.inl mode) outside
  · next mode => exact absurd (.inr mode) outside
  · rfl

theorem opens?_markIn {mode : Balance.Mode} {i : Nat} (outside : ¬ InString mode) :
    (markIn mode i c).opens? = Balance.opened? c := by
  by_cases quote : c = '"'
  · subst quote
    simp [Mark.opens?, markIn, Balance.opened?]
  · simp_all [Mark.opens?, markIn]

theorem closes?_markIn {mode : Balance.Mode} {i : Nat} (outside : ¬ InString mode) :
    (markIn mode i c).closes? = Balance.closed? c := by
  by_cases quote : c = '"'
  · subst quote
    simp [Mark.closes?, markIn, Balance.closed?]
  · simp_all [Mark.closes?, markIn]

theorem next_of_ne_quote (outside : ¬ InString s.mode) (notQuote : c ≠ '"') :
    next s.mode c = s.mode := by
  rw [next, if_neg outside, if_neg notQuote]

/-- The bracket on top of the stack is popped, and both get the colours of the pair. -/
theorem stepCode?_pop (cursor : Nat) {rest : List Open} {b : Bracket} (stack : s.stack = o :: rest)
    (opened : Balance.opened? c = none) (closed : Balance.closed? c = some b)
    (opens : x.opens? = some o.bracket) (closes : z.closes? = some b)
    (offset : o.offset = x.offset) (here : z.offset = s.offset)
    (place : o.place = (shown below).utf8ByteSize)
    (output : s.output = shown (below ++ (x, .plain) :: inner)) :
    stepCode? cursor s c = some
      { s with
        stack := rest
        offset := s.offset + c.utf8Size
        output := shown below ++ paint x.char (pairColours cursor x z).1 ++
          (shown inner ++ paint c (pairColours cursor x z).2) } := by
  have char := (Mark.opens?_eq_some opens).1
  have before (colour : Colour) : ({ s with stack := rest }.put c colour).output =
      shown below ++ paint o.bracket.opening .plain ++ (shown inner ++ paint c colour) := by
    simp [State.put, output, char, String.append_assoc]
  have behind : (isBehind cursor o.offset || isBehind cursor s.offset) ↔
      (cursor = x.offset + 1 ∨ cursor = z.offset + 1) := by
    simp [isBehind, offset, here]
  simp only [stepCode?, opened, closed, stack, pairColours, opens, closes, Option.some.injEq,
    behind]
  by_cases same : o.bracket = b
  · rw [if_pos same, if_pos same]
    by_cases near : cursor = x.offset + 1 ∨ cursor = z.offset + 1
    · rw [if_pos near, if_pos near, repaint?_eq (before .blue) place, ← char]
      rfl
    · rw [if_neg near, if_neg near, char, ← before .plain]
      rfl
  · rw [if_neg same, if_neg same, repaint?_eq (before .red) place, ← char]
    rfl

/-- A step to a state whose output shows one character more. -/
def Advances (cursor : Nat) (s : State) (dots : List (Mark × Colour)) (c : Char)
    (result : Option State) : Prop :=
  ∃ t dots', result = some t ∧ Painted cursor t dots' ∧
    bare dots' = bare dots ++ [markIn s.mode s.offset c] ∧
    t.mode = next s.mode c ∧ t.offset = s.offset + c.utf8Size

theorem Painted.inside (painted : Painted cursor s dots) (inside : InString s.mode) :
    Advances cursor s dots c (step? cursor s c) := by
  let z := markIn s.mode s.offset c
  have quoted : z.quoted := decide_eq_true (.inl inside)
  refine ⟨_, dots ++ [(z, .green)], step?_inside inside, ?_, by simp [z], ?_, rfl⟩
  · exact painted.silent rfl rfl (if_pos quoted) (if_pos quoted) (.literal quoted)
  · exact (if_pos inside).symm

theorem Painted.open (painted : Painted cursor s dots) (outside : ¬ InString s.mode) {b : Bracket}
    (opened : Balance.opened? c = some b) : Advances cursor s dots c (stepCode? cursor s c) := by
  let z := markIn s.mode s.offset c
  have opens : z.opens? = some b := (opens?_markIn outside).trans opened
  have closes : z.closes? = none := (Mark.opens?_eq_some opens).2
  have notQuote : c ≠ '"' := by rintro rfl; cases opened
  let t := { s with stack := ⟨b, s.offset, s.output.utf8ByteSize⟩ :: s.stack }.put c .plain
  have stands : Stands t.stack (dots ++ [(z, .plain)]) :=
    .inside painted.stands opens rfl (by rw [painted.output]) .nil
  have shade : Shade cursor (bare dots) z [] .plain :=
    .neverClosed (Option.isSome_of_eq_some opens) (by simp)
  refine ⟨t, dots ++ [(z, .plain)], by rw [stepCode?, opened], ?_, by simp [z], ?_, rfl⟩
  · refine painted.put rfl stands shade fun _ _ _ _ pops => ?_
    simpa [closes] using pops.closes
  · exact (next_of_ne_quote outside notQuote).symm

/-- A closing bracket with an empty stack finds nothing that it could pop. -/
theorem Painted.close_nothing (painted : Painted cursor s dots)
    (outside : ¬ InString s.mode) {b : Bracket}
    (opened : Balance.opened? c = none) (closed : Balance.closed? c = some b)
    (stack : s.stack = []) : Advances cursor s dots c (stepCode? cursor s c) := by
  let z := markIn s.mode s.offset c
  have opens : z.opens? = none := (opens?_markIn outside).trans opened
  have closes : z.closes? = some b := (closes?_markIn outside).trans closed
  have notQuote : c ≠ '"' := by rintro rfl; cases closed
  have stands := painted.stands
  rw [stack] at stands
  obtain ⟨settled⟩ := stands
  have nothing : ∀ front y between, bare dots = front ++ y :: between → ¬ Pops y between z := by
    intro front y between split
    rw [split] at settled
    exact settled.not_pops
  have stands' : Stands [] (dots ++ [(z, .red)]) := by
    refine .none ?_
    rw [bare_append]
    exact settled.append (settled_singleton opens)
  refine ⟨s.put c .red, dots ++ [(z, .red)], ?_, ?_, by simp [z], ?_, rfl⟩
  · simp [stepCode?, opened, closed, stack]
  · refine painted.put rfl ?_ (.nothingToPop (Option.isSome_of_eq_some closes) nothing) nothing
    rwa [State.put, stack]
  · exact (next_of_ne_quote outside notQuote).symm

theorem Painted.close (painted : Painted cursor s dots) (outside : ¬ InString s.mode) {b : Bracket}
    {rest : List Open}
    (opened : Balance.opened? c = none) (closed : Balance.closed? c = some b)
    (stack : s.stack = o :: rest) : Advances cursor s dots c (stepCode? cursor s c) := by
  let z := markIn s.mode s.offset c
  have closes : z.closes? = some b := (closes?_markIn outside).trans closed
  have notQuote : c ≠ '"' := by rintro rfl; cases closed
  have stands := painted.stands
  rw [stack] at stands
  cases stands with
  | @inside _ _ below inner x stands opens offset place balanced =>
    have pops : Pops x (bare inner) z :=
      ⟨Option.isSome_of_eq_some opens, Option.isSome_of_eq_some closes, balanced⟩
    have popped := stepCode?_pop cursor stack opened closed opens closes offset (rfl : z.offset = _)
      place painted.output
    refine ⟨_, _, popped, painted.pop stands pops rfl, by simp [z], ?_, rfl⟩
    exact (next_of_ne_quote outside notQuote).symm

theorem Painted.other (painted : Painted cursor s dots) (outside : ¬ InString s.mode)
    (opened : Balance.opened? c = none) (closed : Balance.closed? c = none) :
    Advances cursor s dots c (stepCode? cursor s c) := by
  let z := markIn s.mode s.offset c
  have opens : z.opens? = none := (opens?_markIn outside).trans opened
  have closes : z.closes? = none := (closes?_markIn outside).trans closed
  by_cases quote : c = '"'
  · have quoted : z.quoted := decide_eq_true (.inr quote)
    let t := { s with mode := .string }.put c .green
    refine ⟨t, dots ++ [(z, .green)], ?_, ?_, by simp [z], ?_, rfl⟩
    · simp only [stepCode?, opened, closed, if_pos quote, t]
    · exact painted.silent rfl rfl opens closes (.literal quoted)
    · rw [next, if_neg outside, if_pos quote]
      rfl
  · have unquoted : ¬ z.quoted := by
      rw [Bool.not_eq_true]
      exact decide_eq_false (by tauto)
    refine ⟨s.put c .plain, dots ++ [(z, .plain)], ?_, ?_, by simp [z], ?_, rfl⟩
    · simp only [stepCode?, opened, closed, if_neg quote]
    · exact painted.silent rfl rfl opens closes (.other unquoted opens closes)
    · exact (next_of_ne_quote outside quote).symm

/-- One character, whatever it is, is shown in its colour. If a bracket is to be coloured with it,
that does not fail. -/
theorem Painted.step (painted : Painted cursor s dots) (c : Char) :
    Advances cursor s dots c (step? cursor s c) := by
  by_cases inside : InString s.mode
  · exact painted.inside inside
  rw [step?_outside inside]
  cases opened : Balance.opened? c with
  | some b => exact painted.open inside opened
  | none =>
    cases closed : Balance.closed? c with
    | none => exact painted.other inside opened closed
    | some b =>
      cases stack : s.stack with
      | nil => exact painted.close_nothing inside opened closed stack
      | cons o rest => exact painted.close inside opened closed stack

theorem Painted.run (painted : Painted cursor s dots) (cs : List Char) :
    ∃ t dots', cs.foldlM (step? cursor) s = some t ∧ Painted cursor t dots' ∧
      bare dots' = bare dots ++ marksFrom s.mode s.offset cs := by
  induction cs generalizing s dots with
  | nil => exact ⟨s, dots, rfl, painted, by simp [marksFrom]⟩
  | cons c cs ih =>
    obtain ⟨t, dots₁, stepped, painted₁, bare₁, mode, offset⟩ := painted.step c
    obtain ⟨u, dots₂, run, painted₂, bare₂⟩ := ih painted₁
    refine ⟨u, dots₂, ?_, painted₂, ?_⟩
    · rw [List.foldlM_cons, stepped]
      exact run
    · rw [bare₂, bare₁, mode, offset, List.append_assoc]
      rfl

theorem painted_start (cursor : Nat) : Painted cursor .start [] :=
  ⟨rfl, .none (by simp [Settled]), by simp [Shaded]⟩

theorem exists_run? (cursor : Nat) (cs : List Char) :
    ∃ s dots, run? cursor cs = some s ∧ Painted cursor s dots ∧
      bare dots = marksFrom .code 0 cs :=
  (painted_start cursor).run cs

theorem char_marksFrom (mode : Balance.Mode) (i : Nat) (cs : List Char) :
    (marksFrom mode i cs).map Mark.char = cs := by
  induction cs generalizing mode i with
  | nil => rfl
  | cons c cs ih => exact congrArg (c :: ·) (ih _ _)

theorem offset_of_marksFrom {mode : Balance.Mode} {i : Nat} {cs : List Char} {l r : List Mark}
    (split : marksFrom mode i cs = l ++ x :: r) :
    x.offset = i + byteLength (l.map Mark.char) := by
  induction l generalizing mode i cs with
  | nil =>
    cases cs with
    | nil => cases split
    | cons c cs =>
      cases split
      rfl
  | cons y l ih =>
    cases cs with
    | nil => cases split
    | cons c cs =>
      obtain ⟨rfl, rest⟩ := List.cons.inj split
      rw [ih rest, Nat.add_assoc]
      rfl

end Pass

/-- An open bracket after some characters were read. It is one of these, and the output shows it
plain at its place, between what comes before it and what comes after. With whatever is put behind
the output then, to colour the bracket replaces it there and nothing else. -/
def State.Shows (s : State) (front : List Char) (o : Open) : Prop :=
  ∃ (l : List (Mark × Colour)) (x : Mark) (r : List (Mark × Colour)),
    front = (bare l).map Mark.char ++ x.char :: (bare r).map Mark.char ∧
    x.opens? = some o.bracket ∧ o.offset = byteLength ((bare l).map Mark.char) ∧
    s.output = shown l ++ paint x.char .plain ++ shown r ∧ o.place = (shown l).utf8ByteSize ∧
    ∀ (t : State) (more : String) (colour : Colour), t.output = s.output ++ more →
      t.repaint? o colour = some
        { t with output := shown l ++ paint x.char colour ++ (shown r ++ more) }

theorem Painted.shows {cursor : Nat} {s : State} {dots : List (Mark × Colour)} {front : List Char}
    (painted : Painted cursor s dots) (read : bare dots = marksFrom .code 0 front) {o : Open}
    (member : o ∈ s.stack) : s.Shows front o := by
  obtain ⟨l, x, r, rfl, opens, offset, place⟩ := painted.stands.exists_of_mem member
  have char := (Mark.opens?_eq_some opens).1
  have output : s.output = shown l ++ paint x.char .plain ++ shown r := by
    rw [painted.output, shown_append, shown_cons, String.append_assoc]
  rw [bare_append, bare_cons] at read
  refine ⟨l, x, r, ?_, opens, ?_, output, place, fun t more colour behind => ?_⟩
  · rw [← char_marksFrom .code 0 front, ← read, List.map_append, List.map_cons]
  · rw [offset, offset_of_marksFrom read.symm, Nat.zero_add]
  · have before : t.output =
        shown l ++ paint o.bracket.opening .plain ++ (shown r ++ more) := by
      rw [behind, output, char, String.append_assoc]
    rw [repaint?_eq before place, char]

/-- For every line and cursor, the output is the characters of the line in order, each in the one
colour that the rules give it. On the way no replacement fails, and each replaces the bracket that
it is meant for. -/
theorem render_in_right_colours (line : String) (cursor : Nat) :
    ∃ dots : List (Mark × Colour),
      (∀ marks, Cut 0 line.toList marks ↔ marks = bare dots) ∧
      (bare dots).map Mark.char = line.toList ∧
      render line cursor = shown dots ∧
      (∀ l x colour r, dots = l ++ (x, colour) :: r →
        ∀ colour', Shade cursor (bare l) x (bare r) colour' ↔ colour' = colour) ∧
      ∀ front back, line.toList = front ++ back →
        ∃ s, run? cursor front = some s ∧ ∀ o ∈ s.stack, s.Shows front o := by
  obtain ⟨s, dots, run, painted, read⟩ := exists_run? cursor line.toList
  refine ⟨dots, ?_, ?_, ?_, ?_, ?_⟩
  · intro marks
    rw [cut_iff, read]
  · rw [read, char_marksFrom]
  · rw [render, run]
    exact painted.output
  · intro l x colour r split colour'
    have shade := painted.shaded l x colour r split
    rw [List.nil_append, List.append_nil] at shade
    refine ⟨fun other => other.unique shade, ?_⟩
    rintro rfl
    exact shade
  · intro front back _
    obtain ⟨s, dots, run, painted, read⟩ := exists_run? cursor front
    exact ⟨s, run, fun o => painted.shows read⟩

-- a pair around a mismatch and a literal, with the cursor behind its closing bracket
example : render "é([)\")\")" 9 =
    "é\x1b[1;34m(\x1b[0m\x1b[1;31m[\x1b[0m\x1b[31m)\x1b[0m" ++
      "\x1b[32m\"\x1b[0m\x1b[32m)\x1b[0m\x1b[32m\"\x1b[0m\x1b[34m)\x1b[0m" := by
  decide +kernel

end MiniScheme.Highlight
