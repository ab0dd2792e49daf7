import MiniScheme.Proofs.Console.Colours
import MiniScheme.Proofs.Console.Verdicts

/-!
# Red brackets and the verdict

A line is gone through twice, once for its colours and once for the verdict on it. Both passes keep
the open brackets on a stack, but only the second knows of comments. As long as the comments hold no
bracket and no double quote, the stack of the second pass is what the rules of the colours say of
the characters before (`Nests`), and a closing bracket that the rules make red is one that the
verdict is on.
-/
namespace MiniScheme

namespace Balance

/-- In the comments of a text that is read in a mode stand neither brackets nor double quotes. -/
def BareComments (mode : Mode) : List Char → Prop
  | [] => True
  | c :: cs =>
    (mode = .comment → c ≠ '"' ∧ opened? c = none ∧ closed? c = none) ∧
      BareComments (mode.after c) cs

instance BareComments.decidable (mode : Mode) : (cs : List Char) → Decidable (BareComments mode cs)
  | [] => inferInstanceAs (Decidable True)
  | c :: cs =>
    have := BareComments.decidable (mode.after c) cs
    inferInstanceAs (Decidable (_ ∧ _))

/-- The mode in which a character is read if comments are not looked at. -/
def Mode.uncommented : Mode → Mode
  | .comment => .code
  | mode => mode

end Balance

namespace Highlight

open Balance

section Unmatched

variable {cursor : Nat} {x y : Mark} {before after ms : List Mark} {colour : Colour}

/-- A closing bracket that does not pop an opening bracket of its shape. -/
structure Unmatched (before : List Mark) (x : Mark) : Prop where
  closes : x.closes?.isSome
  alone : ∀ front y between, before = front ++ y :: between → Pops y between x →
    y.opens? ≠ x.closes?

theorem unmatched_iff_of_pops {front between : List Mark} (split : before = front ++ y :: between)
    (pops : Pops y between x) : Unmatched before x ↔ y.opens? ≠ x.closes? := by
  refine ⟨fun unmatched => unmatched.alone front y between split pops, fun differ => ?_⟩
  refine ⟨pops.closes, fun front' y' between' split' pops' => ?_⟩
  rwa [← pops.opener_unique pops' (split.symm.trans split')]

/-- Those are the brackets that are red. -/
theorem Shade.eq_red_iff (shade : Shade cursor before x after colour) :
    colour = .red ↔ Unmatched before x := by
  have other (noCloser : x.closes? = none) : ¬ Unmatched before x := fun unmatched => by
    simpa [noCloser] using unmatched.closes
  cases shade with
  | literal quoted => simpa using other (if_pos quoted)
  | other _ _ closes => simpa using other closes
  | @popped _ _ y _ pops =>
    have colours : (pairColours cursor x y).1 ≠ .red := by
      unfold pairColours
      split_ifs <;> decide
    simpa [colours] using other (Mark.closes?_of_opens pops.opens)
  | neverClosed opens => simpa using other (Mark.closes?_of_opens opens)
  | @pops _ _ y split pops =>
    rw [unmatched_iff_of_pops split pops]
    unfold pairColours
    split_ifs with same <;> simp [same]
  | nothingToPop closes nothing =>
    exact iff_of_true rfl ⟨closes, fun front y between split pops =>
      absurd pops (nothing front y between split)⟩

/-- An opening bracket is red with the bracket that pops it. -/
theorem Shade.exists_unmatched (shade : Shade cursor before x after .boldRed) :
    ∃ between y rest, after = between ++ y :: rest ∧ Unmatched (before ++ x :: between) y := by
  generalize named : Colour.boldRed = colour at shade
  cases shade with
  | literal => cases named
  | other => cases named
  | @popped between rest y split pops =>
    refine ⟨between, y, rest, split, (unmatched_iff_of_pops rfl pops).mpr fun same => ?_⟩
    rw [pairColours, if_pos same] at named
    split_ifs at named
  | neverClosed => cases named
  | @pops _ _ y =>
    unfold pairColours at named
    split_ifs at named
  | nothingToPop => cases named

/-- No closing bracket is unmatched. -/
def Matched (ms : List Mark) : Prop := ∀ l x r, ms = l ++ x :: r → ¬ Unmatched l x

/-- The first closing bracket that is unmatched, and its offset. -/
def FirstStray (ms : List Mark) (b : Bracket) (i : Nat) : Prop :=
  ∃ l x r, ms = l ++ x :: r ∧ Matched l ∧ Unmatched l x ∧ x.closes? = some b ∧ x.offset = i

theorem Matched.snoc (matched : Matched ms) (last : ¬ Unmatched ms x) : Matched (ms ++ [x]) := by
  intro l y r split
  obtain rfl | ⟨r, z, rfl⟩ := List.eq_nil_or_concat' r
  · obtain ⟨rfl, same⟩ := List.append_inj' split rfl
    cases same
    exact last
  · rw [← List.cons_append, ← List.append_assoc] at split
    exact matched l y r (List.append_inj_left' split rfl)

end Unmatched

/-- The open brackets, innermost first, among the characters read: each with balanced brackets after
it up to the next. -/
inductive Nests : List Bracket → List Mark → Prop where
  | none {ms : List Mark} (settled : Settled ms) : Nests [] ms
  | inside {stack : List Bracket} {b : Bracket} {ms inner : List Mark} {x : Mark}
      (below : Nests stack ms) (opens : x.opens? = some b) (balanced : Balanced inner) :
      Nests (b :: stack) (ms ++ x :: inner)

section Nests

variable {stack : List Bracket} {b top : Bracket} {ms more : List Mark} {x : Mark}

theorem Nests.append (nests : Nests stack ms) (balanced : Balanced more) :
    Nests stack (ms ++ more) := by
  cases nests with
  | none settled => exact .none (settled.append balanced.settled)
  | inside below opens inner =>
    rw [List.append_assoc, List.cons_append]
    exact .inside below opens (inner.append balanced)

theorem Nests.close (nests : Nests (top :: stack) ms) (closes : x.closes?.isSome) :
    Nests stack (ms ++ [x]) := by
  obtain _ | @⟨_, _, ms, inner, y, below, opens, balanced⟩ := nests
  have pops : Pops y inner x := ⟨Option.isSome_of_eq_some opens, closes, balanced⟩
  rw [List.append_assoc]
  exact below.append pops.balanced_all

/-- A bracket is unmatched if the innermost open one is not of its shape. -/
theorem Nests.unmatched_iff (nests : Nests stack ms) (closes : x.closes? = some b) :
    Unmatched ms x ↔ stack.head? ≠ some b := by
  have some := Option.isSome_of_eq_some closes
  cases nests with
  | none settled =>
    refine iff_of_true ⟨some, fun front y between split pops => ?_⟩ nofun
    exact absurd pops (split ▸ settled).not_pops
  | inside below opens balanced =>
    rw [unmatched_iff_of_pops rfl ⟨Option.isSome_of_eq_some opens, some, balanced⟩, opens, closes]
    rfl

end Nests

/-- The verdict on a text that is checked from an offset, and its marks with those before it. -/
structure Agrees (mode : Mode) (stack : List Bracket) (offset : Nat) (ms : List Mark)
    (cs : List Char) : Prop where
  stray : ∀ b i, checkFrom mode stack offset cs = .invalid b i →
    FirstStray (ms ++ marksFrom mode.uncommented offset cs) b i
  matched : (∀ b i, checkFrom mode stack offset cs ≠ .invalid b i) →
    Matched (ms ++ marksFrom mode.uncommented offset cs)

section Agrees

variable {mode mode' : Mode} {stack stack' : List Bracket} {offset : Nat} {ms : List Mark}
  {c : Char} {cs : List Char}

theorem next_uncommented (bare : mode = .comment → c ≠ '"') :
    next mode.uncommented c = (mode.after c).uncommented := by
  cases mode with
  | code => by_cases quote : c = '"' <;> by_cases semicolon : c = ';' <;>
      simp [next, Mode.uncommented, Mode.after, InString, quote, semicolon]
  | comment =>
    have notQuote := bare rfl
    by_cases newline : c = '\n' <;>
      simp [next, Mode.uncommented, Mode.after, InString, notQuote, newline]
  | string =>
    by_cases backslash : c = '\\' <;> by_cases quote : c = '"' <;>
      simp [next, Mode.uncommented, Mode.after, InString, backslash, quote]
  | escape => simp [next, Mode.uncommented, Mode.after, InString]

theorem Agrees.cons (goesOn : checkFrom mode stack offset (c :: cs) =
      checkFrom (mode.after c) stack' (offset + c.utf8Size) cs)
    (bare : mode = .comment → c ≠ '"')
    (rest : Agrees (mode.after c) stack' (offset + c.utf8Size)
      (ms ++ [markIn mode.uncommented offset c]) cs) :
    Agrees mode stack offset ms (c :: cs) := by
  obtain ⟨stray, matched⟩ := rest
  rw [← goesOn, ← next_uncommented bare, List.append_assoc] at stray matched
  exact ⟨stray, matched⟩

/-- No comment is read here, or a character of one that is bare: it is no bracket to either pass. -/
theorem silent_outside_code (offset : Nat) (notCode : mode ≠ .code)
    (bare : mode = .comment → c ≠ '"' ∧ opened? c = none ∧ closed? c = none) :
    (markIn mode.uncommented offset c).opens? = none ∧
      (markIn mode.uncommented offset c).closes? = none := by
  cases mode with
  | code => exact absurd rfl notCode
  | comment =>
    obtain ⟨-, opened, closed⟩ := bare rfl
    have outside : ¬ InString Mode.comment.uncommented := by decide
    exact ⟨(opens?_markIn outside).trans opened, (closes?_markIn outside).trans closed⟩
  | string => exact ⟨rfl, rfl⟩
  | escape => exact ⟨rfl, rfl⟩

/-- The two passes agree from any place at which they agree on the open brackets. -/
theorem agrees_of_nests (nests : Nests stack ms) (matched : Matched ms)
    (bare : BareComments mode cs) : Agrees mode stack offset ms cs := by
  induction cs generalizing mode stack offset ms with
  | nil =>
    refine ⟨fun b i invalid => absurd invalid checkFrom_nil_ne_invalid, fun _ => ?_⟩
    rwa [marksFrom, List.append_nil]
  | cons c cs ih =>
    obtain ⟨here, later⟩ := bare
    have notQuote : mode = .comment → c ≠ '"' := fun comment => (here comment).1
    have noCloser {x : Mark} (closes : x.closes? = none) : ¬ Unmatched ms x := fun unmatched => by
      simpa [closes] using unmatched.closes
    by_cases code : mode = .code
    · subst code
      have outside : ¬ InString Mode.code.uncommented := by decide
      have opens := opens?_markIn (i := offset) (c := c) outside
      have closes := closes?_markIn (i := offset) (c := c) outside
      cases opened : opened? c with
      | some b =>
        rw [opened] at opens
        obtain ⟨named, closed⟩ := closed?_of_opened? opened
        have stays : Mode.code.after c = .code := by rw [named]; cases b <;> rfl
        have goesOn : checkFrom .code stack offset (c :: cs) =
            checkFrom (Mode.code.after c) (b :: stack) (offset + c.utf8Size) cs := by
          simp [checkFrom, opened, stays]
        refine .cons goesOn notQuote ?_
        exact ih (.inside nests opens .nil) (matched.snoc (noCloser (closes.trans closed))) later
      | none =>
        rw [opened] at opens
        cases closed : closed? c with
        | none =>
          rw [closed] at closes
          have goesOn : checkFrom .code stack offset (c :: cs) =
              checkFrom (Mode.code.after c) stack (offset + c.utf8Size) cs := by
            simp [checkFrom, opened, closed]
          refine .cons goesOn notQuote ?_
          exact ih (nests.append (.silent opens closes)) (matched.snoc (noCloser closes)) later
        | some b =>
          rw [closed] at closes
          have stays : Mode.code.after c = .code := by
            rw [eq_closing_of_closed? closed]; cases b <;> rfl
          have unmatched := nests.unmatched_iff closes
          by_cases top : stack.head? = some b
          · obtain ⟨rest, rfl⟩ := List.head?_eq_some_iff.mp top
            have goesOn : checkFrom .code (b :: rest) offset (c :: cs) =
                checkFrom (Mode.code.after c) rest (offset + c.utf8Size) cs := by
              simp [checkFrom, opened, closed, stays]
            refine .cons goesOn notQuote ?_
            refine ih (nests.close (Option.isSome_of_eq_some closes)) (matched.snoc ?_) later
            rw [unmatched]
            exact not_not.mpr top
          · have invalid : checkFrom .code stack offset (c :: cs) = .invalid b offset := by
              cases stack with
              | nil => simp [checkFrom, opened, closed]
              | cons other rest =>
                have differ : other ≠ b := fun same => top (congrArg some same)
                simp [checkFrom, opened, closed, differ]
            refine ⟨fun b' i found => ?_, fun never => absurd invalid (never b offset)⟩
            rw [invalid] at found
            cases found
            exact ⟨ms, _, _, rfl, matched, unmatched.mpr top, closes, rfl⟩
    · obtain ⟨opens, closes⟩ := silent_outside_code offset code here
      have goesOn : checkFrom mode stack offset (c :: cs) =
          checkFrom (mode.after c) stack (offset + c.utf8Size) cs := by
        simp [checkFrom, code]
      refine .cons goesOn notQuote ?_
      exact ih (nests.append (.silent opens closes)) (matched.snoc (noCloser closes)) later

end Agrees

/-- The dot of a mark. -/
theorem exists_dot {dots : List (Mark × Colour)} {l r : List Mark} {x : Mark}
    (split : bare dots = l ++ x :: r) : ∃ front colour back,
      dots = front ++ (x, colour) :: back ∧ bare front = l ∧ bare back = r := by
  obtain ⟨front, rest, rfl, rfl, there⟩ := List.map_eq_append_iff.mp split
  obtain ⟨⟨x, colour⟩, back, rfl, rfl, rfl⟩ := List.map_eq_cons_iff.mp there
  exact ⟨front, colour, back, rfl, rfl, rfl⟩

/-- For every line whose comments are bare, and every cursor: some bracket is red if and only if the
verdict on the line is that a bracket closes nothing, and this one is the first closing bracket that
is red. -/
theorem red_where_invalid (line : String) (cursor : Nat)
    (bareComments : BareComments .code line.toList) :
    ∃ dots : List (Mark × Colour),
      (∀ marks, Cut 0 line.toList marks ↔ marks = bare dots) ∧
      (bare dots).map Mark.char = line.toList ∧
      render line cursor = shown dots ∧
      (∀ l x colour r, dots = l ++ (x, colour) :: r →
        ∀ colour', Shade cursor (bare l) x (bare r) colour' ↔ colour' = colour) ∧
      ((∃ dot ∈ dots, dot.2 = .red ∨ dot.2 = .boldRed) ↔
        ∃ b i, check line.toList = .invalid b i) ∧
      ∀ b i, check line.toList = .invalid b i → ∃ l x r, dots = l ++ (x, .red) :: r ∧
        x.closes? = some b ∧ byteLength ((bare l).map Mark.char) = i ∧ ∀ dot ∈ l, dot.2 ≠ .red := by
  obtain ⟨s, dots, run, painted, read⟩ := exists_run? cursor line.toList
  have shades : ∀ l x colour r, dots = l ++ (x, colour) :: r →
      Shade cursor (bare l) x (bare r) colour := by
    intro l x colour r split
    simpa using painted.shaded l x colour r split
  have agrees : Agrees .code [] 0 [] line.toList :=
    agrees_of_nests (.none (by simp [Settled])) (by simp [Matched]) bareComments
  have stray : ∀ b i, check line.toList = .invalid b i → FirstStray (bare dots) b i := by
    rw [read]
    exact agrees.stray
  have named : ∀ b i, check line.toList = .invalid b i → ∃ l x r, dots = l ++ (x, .red) :: r ∧
      x.closes? = some b ∧ byteLength ((bare l).map Mark.char) = i ∧ ∀ dot ∈ l, dot.2 ≠ .red := by
    intro b i invalid
    obtain ⟨before, x, after, split, matched, unmatched, closes, place⟩ := stray b i invalid
    obtain ⟨l, colour, r, dotted, rfl, rfl⟩ := exists_dot split
    obtain rfl := (shades l x colour r dotted).eq_red_iff.mpr unmatched
    refine ⟨l, x, r, dotted, closes, ?_, ?_⟩
    · rw [← place, offset_of_marksFrom (read.symm.trans split), Nat.zero_add]
    · rintro ⟨y, colour⟩ member rfl
      obtain ⟨front, back, rfl⟩ := List.append_of_mem member
      rw [List.append_assoc, List.cons_append] at dotted
      exact matched (bare front) y (bare back) (by simp)
        ((shades front y .red _ dotted).eq_red_iff.mp rfl)
  refine ⟨dots, fun marks => by rw [cut_iff, read], by rw [read, char_marksFrom], ?_, ?_, ⟨?_, ?_⟩,
    named⟩
  · rw [render, run]
    exact painted.output
  · intro l x colour r split colour'
    have shade := shades l x colour r split
    exact ⟨fun other => other.unique shade, fun same => same ▸ shade⟩
  · rintro ⟨⟨x, colour⟩, member, red⟩
    by_contra valid
    have matched : Matched (bare dots) := by
      rw [read]
      exact agrees.matched fun b i invalid => valid ⟨b, i, invalid⟩
    obtain ⟨l, r, split⟩ := List.append_of_mem member
    have shade := shades l x colour r split
    obtain rfl | rfl := red
    · exact matched (bare l) x (bare r) (by simp [split]) (shade.eq_red_iff.mp rfl)
    · obtain ⟨between, y, rest, behind, unmatched⟩ := shade.exists_unmatched
      exact matched _ y rest (by simp [split, behind]) unmatched
  · rintro ⟨b, i, invalid⟩
    obtain ⟨l, x, r, split, -⟩ := named b i invalid
    exact ⟨(x, .red), by simp [split], .inl rfl⟩

/-- A bracket in a literal and a semicolon there are passed over, and a comment that is bare. The
pair behind them differs in shape. -/
theorem red_where_invalid_behind_comment :
    let line := "\"(;\" ; note\n(]"
    BareComments .code line.toList ∧ check line.toList = .invalid .square 13 ∧
      ∃ dots : List (Mark × Colour), render line 0 = shown dots ∧
        ∃ l x r, dots = l ++ (x, .red) :: r ∧ x.closes? = some .square ∧
          byteLength ((bare l).map Mark.char) = 13 := by
  intro line
  have bareComments : BareComments .code line.toList := by decide +kernel
  have invalid : check line.toList = .invalid .square 13 := by decide +kernel
  obtain ⟨dots, -, -, output, -, -, first⟩ := red_where_invalid line 0 bareComments
  obtain ⟨l, x, r, split, closes, place, -⟩ := first .square 13 invalid
  exact ⟨bareComments, invalid, dots, output, l, x, r, split, closes, place⟩

/-- A closing bracket in a comment is red, and the line is complete. -/
theorem red_in_comment :
    render "; )" 0 = "; \x1b[31m)\x1b[0m" ∧ check "; )".toList = .valid := by
  decide +kernel

end Highlight
end MiniScheme
