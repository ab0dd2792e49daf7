import Mathlib
import MiniScheme.Console.Highlight

/-!
# The colour of a character

What colour a character of a line gets is said here without a stack and without an output. A line is
cut into code and string literals (`Cut`), in just one way. A closing bracket pops the opening
bracket before it from which balanced brackets part it (`Pops`), and this is at most one. From both,
the rules of `Shade` give a character one colour.
-/
namespace MiniScheme.Highlight

/-- A character of a line, with the byte offset at which it stands, and whether it belongs to a
string literal. -/
structure Mark where
  char : Char
  offset : Nat
  quoted : Bool

/-- The bracket that a character opens outside of literals. -/
def Mark.opens? (m : Mark) : Option Bracket := if m.quoted then none else Balance.opened? m.char

/-- The bracket that a character closes outside of literals. -/
def Mark.closes? (m : Mark) : Option Bracket := if m.quoted then none else Balance.closed? m.char

/-! ## String literals -/

/-- A stretch of a line from an offset, all of it in a literal. -/
def literalFrom (offset : Nat) : List Char → List Mark
  | [] => []
  | c :: cs => ⟨c, offset, true⟩ :: literalFrom (offset + c.utf8Size) cs

/-- What may stand between the quotes of a literal: a backslash goes with the character after it,
and no other character is a quote. -/
inductive Contents : List Char → Prop where
  | nil : Contents []
  | plain {c : Char} {cs : List Char} (notQuote : c ≠ '"') (notBackslash : c ≠ '\\')
      (rest : Contents cs) : Contents (c :: cs)
  | escape {cs : List Char} (c : Char) (rest : Contents cs) : Contents ('\\' :: c :: cs)

/-- A text from an offset, cut into code and string literals. A literal without its closing quote
goes on to the end of the text, which may be a backslash that goes with nothing. -/
inductive Cut : Nat → List Char → List Mark → Prop where
  | nil {i : Nat} : Cut i [] []
  | code {i : Nat} {c : Char} {cs : List Char} {ms : List Mark} (notQuote : c ≠ '"')
      (rest : Cut (i + c.utf8Size) cs ms) : Cut i (c :: cs) (⟨c, i, false⟩ :: ms)
  | literal {i : Nat} {text cs : List Char} {ms : List Mark} (contents : Contents text)
      (rest : Cut (i + byteLength ('"' :: text ++ ['"'])) cs ms) :
      Cut i ('"' :: text ++ ['"'] ++ cs) (literalFrom i ('"' :: text ++ ['"']) ++ ms)
  | unclosed {i : Nat} {text last : List Char} (contents : Contents text)
      (ends : last = [] ∨ last = ['\\']) :
      Cut i ('"' :: text ++ last) (literalFrom i ('"' :: text ++ last))

/-- The modes inside a string literal. -/
def InString (mode : Balance.Mode) : Prop := mode = .string ∨ mode = .escape

instance (mode : Balance.Mode) : Decidable (InString mode) := inferInstanceAs (Decidable (_ ∨ _))

/-- A character read in a mode. -/
def markIn (mode : Balance.Mode) (offset : Nat) (c : Char) : Mark :=
  ⟨c, offset, InString mode ∨ c = '"'⟩

/-- The mode after a character, if comments are not looked at. -/
def next (mode : Balance.Mode) (c : Char) : Balance.Mode :=
  if InString mode then mode.after c else if c = '"' then .string else mode

/-- The marks of a text that is read from an offset, in a mode. -/
def marksFrom (mode : Balance.Mode) (offset : Nat) : List Char → List Mark
  | [] => []
  | c :: cs => markIn mode offset c :: marksFrom (next mode c) (offset + c.utf8Size) cs

section Literals

variable {i : Nat} {text cs : List Char} {ms : List Mark}

theorem literalFrom_append (i : Nat) (cs ds : List Char) :
    literalFrom i (cs ++ ds) = literalFrom i cs ++ literalFrom (i + byteLength cs) ds := by
  induction cs generalizing i with
  | nil => rfl
  | cons c cs ih => simp [literalFrom, ih, Nat.add_assoc]

theorem marksFrom_string_plain {c : Char} (notQuote : c ≠ '"') (notBackslash : c ≠ '\\') :
    marksFrom .string i (c :: cs) = ⟨c, i, true⟩ :: marksFrom .string (i + c.utf8Size) cs := by
  simp [marksFrom, markIn, next, InString, Balance.Mode.after, notQuote, notBackslash]

theorem marksFrom_string_escape (c : Char) :
    marksFrom .string i ('\\' :: c :: cs) =
      literalFrom i ['\\', c] ++ marksFrom .string (i + byteLength ['\\', c]) cs := by
  simp [marksFrom, markIn, next, InString, Balance.Mode.after, literalFrom, Nat.add_assoc]

/-- Contents lead from the string to the string. -/
theorem Contents.marksFrom (contents : Contents text) (i : Nat) (cs : List Char) :
    Highlight.marksFrom .string i (text ++ cs) =
      literalFrom i text ++ Highlight.marksFrom .string (i + byteLength text) cs := by
  induction contents generalizing i with
  | nil => rfl
  | plain notQuote notBackslash _ ih =>
    rw [List.cons_append, marksFrom_string_plain notQuote notBackslash, ih, byteLength_cons,
      Nat.add_assoc]
    rfl
  | @escape rest c _ ih =>
    rw [List.cons_append, List.cons_append, marksFrom_string_escape, ih,
      show '\\' :: c :: rest = ['\\', c] ++ rest from rfl, literalFrom_append, byteLength_append,
      Nat.add_assoc, List.append_assoc]

/-- A closing quote follows on contents, or they go on to the end. -/
theorem exists_contents (cs : List Char) :
    (∃ text rest, Contents text ∧ cs = text ++ ['"'] ++ rest) ∨
      ∃ text last, Contents text ∧ (last = [] ∨ last = ['\\']) ∧ cs = text ++ last := by
  induction length : cs.length using Nat.strongRecOn generalizing cs with
  | _ n ih =>
    cases cs with
    | nil => exact .inr ⟨[], [], .nil, .inl rfl, rfl⟩
    | cons c cs =>
      by_cases quote : c = '"'
      · exact .inl ⟨[], cs, .nil, by rw [quote]; rfl⟩
      by_cases backslash : c = '\\'
      · subst backslash
        cases cs with
        | nil => exact .inr ⟨[], ['\\'], .nil, .inr rfl, rfl⟩
        | cons d cs =>
          have shorter : cs.length < n := by simp only [List.length_cons] at length; omega
          obtain ⟨text, rest, contents, rfl⟩ | ⟨text, last, contents, ends, rfl⟩ :=
            ih cs.length shorter cs rfl
          · exact .inl ⟨'\\' :: d :: text, rest, .escape d contents, rfl⟩
          · exact .inr ⟨'\\' :: d :: text, last, .escape d contents, ends, rfl⟩
      · have shorter : cs.length < n := by simp only [List.length_cons] at length; omega
        obtain ⟨text, rest, contents, rfl⟩ | ⟨text, last, contents, ends, rfl⟩ :=
          ih cs.length shorter cs rfl
        · exact .inl ⟨c :: text, rest, .plain quote backslash contents, rfl⟩
        · exact .inr ⟨c :: text, last, .plain quote backslash contents, ends, rfl⟩

theorem exists_cut (i : Nat) (cs : List Char) : ∃ ms, Cut i cs ms := by
  induction length : cs.length using Nat.strongRecOn generalizing i cs with
  | _ n ih =>
    cases cs with
    | nil => exact ⟨[], .nil⟩
    | cons c cs =>
      simp only [List.length_cons] at length
      by_cases quote : c = '"'
      · subst quote
        obtain ⟨text, rest, contents, rfl⟩ | ⟨text, last, contents, ends, rfl⟩ := exists_contents cs
        · have shorter : rest.length < n := by simp only [List.length_append] at length; omega
          obtain ⟨ms, cut⟩ := ih rest.length shorter _ rest rfl
          exact ⟨_, .literal contents cut⟩
        · exact ⟨_, .unclosed contents ends⟩
      · obtain ⟨ms, cut⟩ := ih cs.length (by omega) (i + c.utf8Size) cs rfl
        exact ⟨_, .code quote cut⟩

theorem Cut.eq_marksFrom (cut : Cut i cs ms) : ms = marksFrom .code i cs := by
  induction cut with
  | nil => rfl
  | code notQuote _ ih => simp [marksFrom, markIn, next, InString, notQuote, ih]
  | @literal i text cs ms contents _ ih =>
    have opening : marksFrom .code i ('"' :: (text ++ '"' :: cs)) =
        ⟨'"', i, true⟩ :: marksFrom .string (i + '"'.utf8Size) (text ++ '"' :: cs) := rfl
    have closing (j : Nat) : marksFrom .string j ('"' :: cs) =
        ⟨'"', j, true⟩ :: marksFrom .code (j + '"'.utf8Size) cs := rfl
    rw [ih]
    simp [opening, closing, contents.marksFrom, literalFrom, literalFrom_append, Nat.add_assoc]
  | @unclosed i text last contents ends =>
    have opening : marksFrom .code i ('"' :: (text ++ last)) =
        ⟨'"', i, true⟩ :: marksFrom .string (i + '"'.utf8Size) (text ++ last) := rfl
    have end_ (j : Nat) : marksFrom .string j last = literalFrom j last := by
      obtain rfl | rfl := ends <;> rfl
    simp [opening, contents.marksFrom, literalFrom, literalFrom_append, end_]

/-- A text is cut in just one way: by the mode in which each character is read. -/
theorem cut_iff : Cut i cs ms ↔ ms = marksFrom .code i cs := by
  refine ⟨Cut.eq_marksFrom, ?_⟩
  rintro rfl
  obtain ⟨ms, cut⟩ := exists_cut i cs
  exact cut.eq_marksFrom ▸ cut

end Literals

/-! ## Brackets -/

/-- How many brackets some marks open. -/
def openers (ms : List Mark) : Nat := ms.countP fun m => m.opens?.isSome

/-- How many brackets some marks close. -/
def closers (ms : List Mark) : Nat := ms.countP fun m => m.closes?.isSome

/-- As much is closed as is opened, and at no place more than was opened before it. The shapes of
the brackets do not matter. -/
structure Balanced (ms : List Mark) : Prop where
  even : closers ms = openers ms
  order : ∀ n, closers (ms.take n) ≤ openers (ms.take n)

/-- A bracket that pops the opening bracket before it, with what is between the two. -/
structure Pops (opener : Mark) (between : List Mark) (closer : Mark) : Prop where
  opens : opener.opens?.isSome
  closes : closer.closes?.isSome
  balanced : Balanced between

/-- Nothing is left open: from no place on is more opened than is closed. -/
def Settled (ms : List Mark) : Prop := ∀ n, openers (ms.drop n) ≤ closers (ms.drop n)

section Brackets

variable {x y z : Mark} {ms ms' front inner inner' rest rest' : List Mark}

@[simp] theorem openers_nil : openers [] = 0 := rfl

@[simp] theorem closers_nil : closers [] = 0 := rfl

@[simp] theorem openers_append (ms ms' : List Mark) :
    openers (ms ++ ms') = openers ms + openers ms' := List.countP_append

@[simp] theorem closers_append (ms ms' : List Mark) :
    closers (ms ++ ms') = closers ms + closers ms' := List.countP_append

theorem openers_cons (x : Mark) (ms : List Mark) :
    openers (x :: ms) = openers ms + if x.opens?.isSome then 1 else 0 := List.countP_cons

theorem closers_cons (x : Mark) (ms : List Mark) :
    closers (x :: ms) = closers ms + if x.closes?.isSome then 1 else 0 := List.countP_cons

theorem closed?_of_opened? {c : Char} {b : Bracket} (opened : Balance.opened? c = some b) :
    c = b.opening ∧ Balance.closed? c = none := by
  unfold Balance.opened? at opened
  split at opened
  · cases opened
    exact ⟨rfl, rfl⟩
  · cases opened
    exact ⟨rfl, rfl⟩
  · cases opened

theorem Mark.opens?_eq_some {b : Bracket} (opens : x.opens? = some b) :
    x.char = b.opening ∧ x.closes? = none := by
  unfold Mark.opens? at opens
  split at opens
  · cases opens
  · next unquoted =>
    obtain ⟨char, closes⟩ := closed?_of_opened? opens
    refine ⟨char, ?_⟩
    rw [Mark.closes?, if_neg unquoted, closes]

theorem Mark.closes?_of_opens (opens : x.opens?.isSome) : x.closes? = none := by
  obtain ⟨b, some⟩ := Option.isSome_iff_exists.mp opens
  exact (Mark.opens?_eq_some some).2

theorem Mark.opens?_of_closes (closes : x.closes?.isSome) : x.opens? = none := by
  by_contra some
  simp [Mark.closes?_of_opens (Option.isSome_iff_ne_none.mpr some)] at closes

theorem openers_of_opens (opens : x.opens?.isSome) (ms : List Mark) :
    openers (x :: ms) = openers ms + 1 ∧ closers (x :: ms) = closers ms := by
  simp [openers_cons, closers_cons, opens, Mark.closes?_of_opens opens]

theorem closers_of_closes (closes : x.closes?.isSome) (ms : List Mark) :
    closers (x :: ms) = closers ms + 1 ∧ openers (x :: ms) = openers ms := by
  simp [openers_cons, closers_cons, Mark.opens?_of_closes closes, closes]

theorem Balanced.nil : Balanced [] := ⟨rfl, by simp⟩

theorem Balanced.append (first : Balanced ms) (second : Balanced ms') : Balanced (ms ++ ms') := by
  refine ⟨by simp [first.even, second.even], fun n => ?_⟩
  rw [List.take_append, openers_append, closers_append]
  exact Nat.add_le_add (first.order n) (second.order _)

theorem Balanced.silent (opens : x.opens? = none) (closes : x.closes? = none) : Balanced [x] := by
  refine ⟨by simp [openers_cons, closers_cons, opens, closes], fun n => ?_⟩
  cases n <;> simp [openers_cons, closers_cons, opens, closes]

/-- A bracket that pops another, with all that is between them. -/
theorem Pops.balanced_all (pops : Pops x inner y) : Balanced (x :: inner ++ [y]) := by
  obtain ⟨opens, closes, balanced⟩ := pops
  refine ⟨?_, fun n => ?_⟩
  · simp [openers_of_opens opens, closers_of_closes closes, balanced.even]
  · cases n with
    | zero => simp
    | succ n =>
      have last : closers ([y].take (n - inner.length)) ≤ 1 := List.countP_le_length.trans (by simp)
      have order := balanced.order n
      simp only [List.cons_append, List.take_succ_cons, openers_of_opens opens, List.take_append,
        openers_append, closers_append]
      omega

theorem Balanced.settled (balanced : Balanced ms) : Settled ms := by
  intro n
  have even := balanced.even
  rw [← List.take_append_drop n ms, openers_append, closers_append] at even
  have order := balanced.order n
  omega

theorem Settled.append (first : Settled ms) (second : Settled ms') : Settled (ms ++ ms') := by
  intro n
  rw [List.drop_append, openers_append, closers_append]
  exact Nat.add_le_add (first n) (second _)

theorem settled_singleton (opens : x.opens? = none) : Settled [x] := by
  intro n
  cases n <;> simp [openers_cons, opens]

/-- Where nothing is left open, nothing can be popped from behind. -/
theorem Settled.not_pops (settled : Settled (front ++ x :: inner)) : ¬ Pops x inner y := by
  rintro ⟨opens, -, balanced⟩
  have suffix := settled front.length
  rw [List.drop_left] at suffix
  have even := balanced.even
  obtain ⟨more, same⟩ := openers_of_opens opens inner
  omega

/-- Between a bracket and the one that pops it there is none that would pop it as well. -/
theorem Balanced.not_pops (balanced : Balanced (inner ++ y :: rest)) : ¬ Pops x inner y := by
  rintro ⟨-, closes, before⟩
  have order := balanced.order (inner.length + 1)
  rw [List.take_append, Nat.add_sub_cancel_left, List.take_succ_cons, List.take_zero,
    List.take_of_length_le (Nat.le_succ _), openers_append, closers_append] at order
  have even := before.even
  obtain ⟨more, same⟩ := closers_of_closes closes []
  rw [closers_nil] at more
  rw [openers_nil] at same
  omega

/-- A bracket pops at most one. -/
theorem Pops.opener_unique {front' : List Mark} {x' : Mark} (pops : Pops x inner z)
    (pops' : Pops x' inner' z) (same : front ++ x :: inner = front' ++ x' :: inner') : x = x' := by
  obtain ⟨between, rfl, rest⟩ | ⟨between, rfl, rest⟩ := List.append_eq_append_iff.mp same
  · cases between with
    | nil => exact (List.cons.inj rest).1
    | cons _ between =>
      obtain ⟨rfl, rfl⟩ := List.cons.inj rest
      exact absurd pops' pops.balanced.settled.not_pops
  · cases between with
    | nil => exact (List.cons.inj rest).1.symm
    | cons _ between =>
      obtain ⟨rfl, rfl⟩ := List.cons.inj rest
      exact absurd pops pops'.balanced.settled.not_pops

/-- A bracket is popped by at most one. -/
theorem Pops.closer_unique {y' : Mark} (pops : Pops x inner y) (pops' : Pops x inner' y')
    (same : inner ++ y :: rest = inner' ++ y' :: rest') : y = y' := by
  obtain ⟨between, rfl, after⟩ | ⟨between, rfl, after⟩ := List.append_eq_append_iff.mp same
  · cases between with
    | nil => exact (List.cons.inj after).1
    | cons _ between =>
      obtain ⟨rfl, -⟩ := List.cons.inj after
      exact absurd pops pops'.balanced.not_pops
  · cases between with
    | nil => exact (List.cons.inj after).1.symm
    | cons _ between =>
      obtain ⟨rfl, -⟩ := List.cons.inj after
      exact absurd pops' pops.balanced.not_pops

end Brackets

/-! ## The rules -/

/-- The colours of an opening bracket and of the bracket that pops it: red if their shapes differ,
and else blue if the cursor stands right behind one of them. -/
def pairColours (cursor : Nat) (opener closer : Mark) : Colour × Colour :=
  if opener.opens? = closer.closes? then
    if cursor = opener.offset + 1 ∨ cursor = closer.offset + 1 then (.boldBlue, .blue)
    else (.plain, .plain)
  else (.boldRed, .red)

/-- The colour of a character that stands between others. -/
inductive Shade (cursor : Nat) (before : List Mark) (x : Mark) (after : List Mark) : Colour → Prop
  where
  | literal (quoted : x.quoted) : Shade cursor before x after .green
  | other (unquoted : ¬ x.quoted) (opens : x.opens? = none) (closes : x.closes? = none) :
      Shade cursor before x after .plain
  | popped {between rest : List Mark} {y : Mark} (split : after = between ++ y :: rest)
      (pops : Pops x between y) : Shade cursor before x after (pairColours cursor x y).1
  | neverClosed (opens : x.opens?.isSome)
      (never : ∀ between y rest, after = between ++ y :: rest → ¬ Pops x between y) :
      Shade cursor before x after .plain
  | pops {front between : List Mark} {y : Mark} (split : before = front ++ y :: between)
      (pops : Pops y between x) : Shade cursor before x after (pairColours cursor y x).2
  | nothingToPop (closes : x.closes?.isSome)
      (nothing : ∀ front y between, before = front ++ y :: between → ¬ Pops y between x) :
      Shade cursor before x after .red

section Rules

variable {cursor : Nat} {x z : Mark} {before after : List Mark} {colour colour' : Colour}

theorem Shade.of_quoted (shade : Shade cursor before x after colour) (quoted : x.quoted) :
    colour = .green := by
  have noOpener : ¬ x.opens?.isSome := by simp [Mark.opens?, quoted]
  have noCloser : ¬ x.closes?.isSome := by simp [Mark.closes?, quoted]
  cases shade with
  | literal => rfl
  | other unquoted => exact absurd quoted unquoted
  | popped _ pops => exact absurd pops.opens noOpener
  | neverClosed some => exact absurd some noOpener
  | pops _ pops => exact absurd pops.closes noCloser
  | nothingToPop some => exact absurd some noCloser

theorem Shade.of_silent (shade : Shade cursor before x after colour) (unquoted : ¬ x.quoted)
    (opens : x.opens? = none) (closes : x.closes? = none) : colour = .plain := by
  have noOpener : ¬ x.opens?.isSome := by simp [opens]
  have noCloser : ¬ x.closes?.isSome := by simp [closes]
  cases shade with
  | literal quoted => exact absurd quoted unquoted
  | other => rfl
  | popped _ pops => exact absurd pops.opens noOpener
  | neverClosed => rfl
  | pops _ pops => exact absurd pops.closes noCloser
  | nothingToPop some => exact absurd some noCloser

theorem Shade.of_opens (shade : Shade cursor before x after colour) (opens : x.opens?.isSome) :
    (∃ between y rest, after = between ++ y :: rest ∧ Pops x between y ∧
      colour = (pairColours cursor x y).1) ∨
    (∀ between y rest, after = between ++ y :: rest → ¬ Pops x between y) ∧ colour = .plain := by
  have noCloser : ¬ x.closes?.isSome := by simp [Mark.closes?_of_opens opens]
  cases shade with
  | literal quoted => simp [Mark.opens?, quoted] at opens
  | other _ none => simp [none] at opens
  | popped split pops => exact .inl ⟨_, _, _, split, pops, rfl⟩
  | neverClosed _ never => exact .inr ⟨never, rfl⟩
  | pops _ pops => exact absurd pops.closes noCloser
  | nothingToPop some => exact absurd some noCloser

theorem Shade.of_closes (shade : Shade cursor before x after colour) (closes : x.closes?.isSome) :
    (∃ front y between, before = front ++ y :: between ∧ Pops y between x ∧
      colour = (pairColours cursor y x).2) ∨
    (∀ front y between, before = front ++ y :: between → ¬ Pops y between x) ∧ colour = .red := by
  have noOpener : ¬ x.opens?.isSome := by simp [Mark.opens?_of_closes closes]
  cases shade with
  | literal quoted => simp [Mark.closes?, quoted] at closes
  | other _ _ none => simp [none] at closes
  | popped _ pops => exact absurd pops.opens noOpener
  | neverClosed some => exact absurd some noOpener
  | pops split pops => exact .inl ⟨_, _, _, split, pops, rfl⟩
  | nothingToPop _ nothing => exact .inr ⟨nothing, rfl⟩

/-- The rules give one colour. -/
theorem Shade.unique (first : Shade cursor before x after colour)
    (second : Shade cursor before x after colour') : colour = colour' := by
  cases first with
  | literal quoted => exact (second.of_quoted quoted).symm
  | other unquoted opens closes => exact (second.of_silent unquoted opens closes).symm
  | popped split pops =>
    obtain ⟨_, _, _, split', pops', rfl⟩ | ⟨never, -⟩ := second.of_opens pops.opens
    · rw [pops.closer_unique pops' (split.symm.trans split')]
    · exact absurd pops (never _ _ _ split)
  | neverClosed opens never =>
    obtain ⟨_, _, _, split, pops, -⟩ | ⟨-, rfl⟩ := second.of_opens opens
    · exact absurd pops (never _ _ _ split)
    · rfl
  | pops split pops =>
    obtain ⟨_, _, _, split', pops', rfl⟩ | ⟨nothing, -⟩ := second.of_closes pops.closes
    · rw [pops.opener_unique pops' (split.symm.trans split')]
    · exact absurd pops (nothing _ _ _ split)
  | nothingToPop closes nothing =>
    obtain ⟨_, _, _, split, pops, -⟩ | ⟨-, rfl⟩ := second.of_closes closes
    · exact absurd pops (nothing _ _ _ split)
    · rfl

/-- The colour stays right when a character is added that does not pop the bracket. -/
theorem Shade.snoc (shade : Shade cursor before x after colour) (kept : ¬ Pops x after z) :
    Shade cursor before x (after ++ [z]) colour := by
  cases shade with
  | literal quoted => exact .literal quoted
  | other unquoted opens closes => exact .other unquoted opens closes
  | popped split pops => exact .popped (by rw [split, List.append_assoc, List.cons_append]) pops
  | neverClosed opens never =>
    refine .neverClosed opens fun between y rest split pops => ?_
    obtain rfl | ⟨rest, last, rfl⟩ := List.eq_nil_or_concat' rest
    · obtain ⟨rfl, same⟩ := List.append_inj' split rfl
      cases same
      exact kept pops
    · rw [← List.cons_append, ← List.append_assoc] at split
      exact never between y rest (List.append_inj_left' split rfl) pops
  | pops split pops => exact .pops split pops
  | nothingToPop closes nothing => exact .nothingToPop closes nothing

end Rules

end MiniScheme.Highlight
