import MiniScheme.Proofs.Eval.Sharing
import MiniScheme.Proofs.Session.NoInternal

/-!
# Equality of values

`equal?` compares what values hold, but takes two pairs with one identity for equal without looking
into them. The shortcut shows where a number is held that does not equal itself: a pair equals
itself whatever it holds. Equality is an equivalence all the same, but for that number, because
pairs with one identity hold the same (`MiniScheme.Proofs.Eval.Sharing`): wherever the shortcut is
taken, the parts that were not compared are the same parts.

`Value.SameContents` is equality without the shortcut. Nothing is assumed of doubles: that their
equality is symmetric, transitive, and reflexive but for one of them is read off their model.
-/
namespace MiniScheme

section Atoms

variable {x y z : Float} {a b c : Atom}

theorem Number.beq_symm (equal : x == y) : y == x := by
  rw [Float.beq_iff_ne_nan_and_eq] at equal ⊢
  obtain ⟨left, right, same | ⟨zero, negative⟩ | ⟨negative, zero⟩⟩ := equal
  · exact ⟨right, left, .inl same.symm⟩
  · exact ⟨right, left, .inr (.inr ⟨negative, zero⟩)⟩
  · exact ⟨right, left, .inr (.inl ⟨zero, negative⟩)⟩

theorem Number.beq_trans (first : x == y) (second : y == z) : x == z := by
  rw [Float.beq_iff_ne_nan_and_eq] at first second ⊢
  obtain ⟨left, -, same⟩ := first
  obtain ⟨-, right, same'⟩ := second
  refine ⟨left, right, ?_⟩
  -- the two zeros are equal, and every other number only to itself
  obtain rfl | ⟨rfl, rfl⟩ | ⟨rfl, rfl⟩ := same
  · exact same'
  · obtain rfl | ⟨-, rfl⟩ | ⟨-, rfl⟩ := same'
    · exact .inr (.inl ⟨rfl, rfl⟩)
    · exact .inr (.inl ⟨rfl, rfl⟩)
    · exact .inl rfl
  · obtain rfl | ⟨-, rfl⟩ | ⟨-, rfl⟩ := same'
    · exact .inr (.inr ⟨rfl, rfl⟩)
    · exact .inl rfl
    · exact .inr (.inr ⟨rfl, rfl⟩)

theorem Number.beq_self_of_not_isNaN (number : ¬ x.isNaN) : x == x := by
  rw [Float.beq_self_iff]
  simpa [Float.isNaN_eq_decide_eq_nan] using number

theorem Atom.equal_symm (equal : a.equal b) : b.equal a := by
  cases a <;> cases b <;> simp only [Atom.equal, Bool.false_eq_true] at equal ⊢
  case number => exact Number.beq_symm equal
  all_goals exact beq_iff_eq.mpr (beq_iff_eq.mp equal).symm

theorem Atom.equal_trans (first : a.equal b) (second : b.equal c) : a.equal c := by
  cases a <;> cases b <;> simp only [Atom.equal, Bool.false_eq_true] at first <;>
    cases c <;> simp only [Atom.equal, Bool.false_eq_true] at second ⊢
  case number => exact Number.beq_trans first second
  all_goals exact beq_iff_eq.mpr ((beq_iff_eq.mp first).trans (beq_iff_eq.mp second))

end Atoms

section Leaves

/-- What a procedure is known by. -/
def Procedure.identity : Procedure → Primitive ⊕ ClosureId
  | .primitive p => .inl p
  | .closure id _ => .inr id

def Computed.identity : Computed → Option (Primitive ⊕ ClosureId)
  | .unspecified => none
  | .procedure p => some p.identity

theorem Computed.same_iff {r t : Computed} : r.same t ↔ r.identity = t.identity := by
  cases r with
  | unspecified => cases t <;> simp [same, identity]
  | procedure p =>
    cases t with
    | unspecified => simp [same, identity]
    | procedure q =>
      cases p <;> cases q <;> simp [same, identity, Procedure.same, Procedure.identity]

end Leaves

namespace Value

/-- Some number in the value is no number. -/
def HasNaN : Value → Prop
  | .pair _ _ car cdr => HasNaN car ∨ HasNaN cdr
  | .number _ x => x.isNaN
  | _ => False

/-- Values of the same contents: atoms that are equal, procedures that are the same, and pairs whose
parts have the same contents. Spans and the identities of pairs do not matter. -/
inductive SameContents : Value → Value → Prop where
  | boolean {s t : Span} (b : Bool) : SameContents (.boolean s b) (.boolean t b)
  | number {s t : Span} {x y : Float} (equal : x == y) : SameContents (.number s x) (.number t y)
  | character {s t : Span} (c : Char) :
      SameContents (.atom s (.character c)) (.atom t (.character c))
  | string {s t : Span} (text : String) :
      SameContents (.atom s (.string text)) (.atom t (.string text))
  | symbol {s t : Span} (name : String) :
      SameContents (.atom s (.symbol name)) (.atom t (.symbol name))
  | nil {s t : Span} : SameContents (.nil s) (.nil t)
  | unspecified {s t : Span} : SameContents (.unspecified s) (.unspecified t)
  | primitive {s t : Span} {p q : Primitive} (names : p.name = q.name) :
      SameContents (.procedure s (.primitive p)) (.procedure t (.primitive q))
  | closure {s t : Span} {name name' : Option String} (id : ClosureId) :
      SameContents (.procedure s (.closure id name)) (.procedure t (.closure id name'))
  | pair {s t : Span} {mark mark' : CellId} {car cdr car' cdr' : Value}
      (first : SameContents car car') (second : SameContents cdr cdr') :
      SameContents (.pair s mark car cdr) (.pair t mark' car' cdr')

variable {h : Heap} {a b c : Value}

theorem SameContents.first {s t : Span} {mark mark' : CellId} {car cdr car' cdr' : Value}
    (same : SameContents (.pair s mark car cdr) (.pair t mark' car' cdr')) :
    car.SameContents car' := by
  cases same
  assumption

theorem equal_pair {s t : Span} {mark mark' : CellId} {car cdr car' cdr' : Value} :
    equal (.pair s mark car cdr) (.pair t mark' car' cdr') ↔
      mark = mark' ∨ car.equal car' ∧ cdr.equal cdr' := by
  simp [equal, Sexpr.equalBy]

/-- Pairs with one identity hold the same. -/
theorem Conforms.parts_eq {s t : Span} {mark : CellId} {car cdr car' cdr' : Value}
    (left : Conforms h (.pair s mark car cdr)) (right : Conforms h (.pair t mark car' cdr')) :
    car = car' ∧ cdr = cdr' :=
  Prod.mk.inj (left.2.1.symm.trans right.2.1)

theorem equal_of_same (same : a.same b) : a.equal b := by
  cases a with
  | pair =>
    cases b with
    | pair => exact equal_pair.mpr (.inl (beq_iff_eq.mp same))
    | _ => exact same
  | _ => exact same

theorem equal_symm (equal : a.equal b) : b.equal a := by
  induction a generalizing b with
  | atom _ a =>
    cases b with
    | atom _ b => exact Atom.equal_symm equal
    | _ => cases equal
  | nil =>
    cases b with
    | nil => rfl
    | _ => cases equal
  | leaf _ r =>
    cases b with
    | leaf _ t => exact Computed.same_iff.mpr (Computed.same_iff.mp equal).symm
    | _ => cases equal
  | pair _ mark car cdr ihCar ihCdr =>
    cases b with
    | pair =>
      obtain same | ⟨first, second⟩ := equal_pair.mp equal
      · exact equal_pair.mpr (.inl same.symm)
      · exact equal_pair.mpr (.inr ⟨ihCar first, ihCdr second⟩)
    | _ => cases equal

/-- If the shortcut is taken between two of three pairs, these hold the same parts, so that what is
known of the parts of one is known of the other's. -/
theorem equal_trans (aConforms : a.Conforms h) (bConforms : b.Conforms h) (cConforms : c.Conforms h)
    (first : a.equal b) (second : b.equal c) : a.equal c := by
  induction a generalizing b c with
  | atom _ a =>
    cases b with
    | atom _ b =>
      cases c with
      | atom _ c => exact Atom.equal_trans first second
      | _ => cases second
    | _ => cases first
  | nil =>
    cases b with
    | nil => cases c <;> exact second
    | _ => cases first
  | leaf _ r =>
    cases b with
    | leaf _ t =>
      cases c with
      | leaf _ u =>
        exact Computed.same_iff.mpr
          ((Computed.same_iff.mp first).trans (Computed.same_iff.mp second))
      | _ => cases second
    | _ => cases first
  | pair _ mark car cdr ihCar ihCdr =>
    cases b with
    | pair _ mark' car' cdr' =>
      cases c with
      | pair _ mark'' car'' cdr'' =>
        obtain rfl | ⟨car₁, cdr₁⟩ := equal_pair.mp first
        · obtain ⟨rfl, rfl⟩ := aConforms.parts_eq bConforms
          exact second
        · obtain rfl | ⟨car₂, cdr₂⟩ := equal_pair.mp second
          · obtain ⟨rfl, rfl⟩ := bConforms.parts_eq cConforms
            exact first
          · obtain ⟨-, -, aCar, aCdr⟩ := aConforms
            obtain ⟨-, -, bCar, bCdr⟩ := bConforms
            obtain ⟨-, -, cCar, cCdr⟩ := cConforms
            exact equal_pair.mpr
              (.inr ⟨ihCar aCar bCar cCar car₁ car₂, ihCdr aCdr bCdr cCdr cdr₁ cdr₂⟩)
      | _ => cases second
    | _ => cases first

theorem sameContents_self (numbers : ¬ a.HasNaN) : a.SameContents a := by
  induction a with
  | atom _ a =>
    cases a with
    | boolean b => exact .boolean b
    | number x => exact .number (Number.beq_self_of_not_isNaN numbers)
    | character c => exact .character c
    | string text => exact .string text
    | symbol name => exact .symbol name
  | nil => exact .nil
  | leaf _ r =>
    cases r with
    | unspecified => exact .unspecified
    | procedure p =>
      cases p with
      | primitive => exact .primitive rfl
      | closure id => exact .closure id
  | pair _ _ car cdr ihCar ihCdr =>
    rw [HasNaN, not_or] at numbers
    exact .pair (ihCar numbers.1) (ihCdr numbers.2)

theorem SameContents.equal (same : a.SameContents b) : a.equal b := by
  induction same with
  | number equal => exact equal
  | primitive names =>
    obtain rfl := Primitive.name_injective names
    simp [Value.equal, Sexpr.equalBy, Computed.same, Procedure.same]
  | pair _ _ first second => exact equal_pair.mpr (.inr ⟨first, second⟩)
  | _ => simp [Value.equal, Sexpr.equalBy, Atom.equal, Computed.same, Procedure.same]

theorem sameContents_of_atom_equal {a b : Atom} (s t : Span) (equal : a.equal b) :
    SameContents (.atom s a) (.atom t b) := by
  cases a <;> cases b <;> simp only [Atom.equal, Bool.false_eq_true, beq_iff_eq] at equal
  case number => exact .number equal
  all_goals
    subst equal
    constructor

theorem sameContents_of_leaf_same {r u : Computed} (s t : Span) (same : r.same u) :
    SameContents (.leaf s r) (.leaf t u) := by
  have identities := Computed.same_iff.mp same
  cases r with
  | unspecified =>
    cases u with
    | unspecified => exact .unspecified
    | procedure => cases identities
  | procedure p =>
    cases u with
    | unspecified => cases identities
    | procedure q =>
      cases p with
      | primitive =>
        cases q with
        | primitive =>
          cases identities
          exact .primitive rfl
        | closure => cases identities
      | closure =>
        cases q with
        | primitive => cases identities
        | closure =>
          cases identities
          exact .closure _

/-- Without the number that does not equal itself, the shortcut decides nothing that looking into
the pairs would not decide the same way. -/
theorem sameContents_of_equal (aConforms : a.Conforms h) (bConforms : b.Conforms h)
    (numbers : ¬ a.HasNaN) (equal : a.equal b) : a.SameContents b := by
  induction a generalizing b with
  | atom =>
    cases b with
    | atom => exact sameContents_of_atom_equal _ _ equal
    | _ => cases equal
  | nil =>
    cases b with
    | nil => exact .nil
    | _ => cases equal
  | leaf =>
    cases b with
    | leaf => exact sameContents_of_leaf_same _ _ equal
    | _ => cases equal
  | pair _ mark car cdr ihCar ihCdr =>
    cases b with
    | pair _ mark' car' cdr' =>
      rw [HasNaN, not_or] at numbers
      obtain rfl | ⟨first, second⟩ := equal_pair.mp equal
      · obtain ⟨rfl, rfl⟩ := aConforms.parts_eq bConforms
        exact .pair (sameContents_self numbers.1) (sameContents_self numbers.2)
      · obtain ⟨-, -, aCar, aCdr⟩ := aConforms
        obtain ⟨-, -, bCar, bCdr⟩ := bConforms
        exact .pair (ihCar aCar bCar numbers.1 first) (ihCdr aCdr bCdr numbers.2 second)
    | _ => cases equal

end Value

namespace Session

/-- The store of the session is reached, whatever is held outside of it. -/
def Configured (s : Session) : Prop := ∃ held, Configuration.Reached ⟨s.store, held⟩

variable {s : Session}

theorem store_evalDatum (s : Session) (d : Datum) :
    (s.evalDatum d).2.store =
      (eval s.fuel globalFrame (s.store.load d).1).after (s.store.load d).2 := by
  simp only [evalDatum, evalValue, Machine.after]
  cases eval s.fuel globalFrame (s.store.load d).1 (s.store.load d).2 <;> rfl

/-- To evaluate a datum is to read it and to evaluate what was read. -/
theorem Configured.evalDatum (configured : s.Configured) (d : Datum) :
    (s.evalDatum d).2.Configured := by
  obtain ⟨held, reached⟩ := configured
  let v := (s.store.load d).1
  let read : Configuration := ⟨(s.store.load d).2, v :: held⟩
  have evaluated : (read.after (eval s.fuel globalFrame v)).Reached :=
    (reached.tail (.read d)).tail (.eval s.fuel globalFrame List.mem_cons_self)
  refine ⟨(read.after (eval s.fuel globalFrame v)).held, ?_⟩
  rw [store_evalDatum]
  exact evaluated

theorem Configured.runRead (configured : s.Configured)
    (readings : List (Except ReadError Datum)) : (s.runRead readings).session.Configured :=
  runRead_keeps (fun _ d _ before => before.evalDatum d) configured

theorem Configured.evalRead (configured : s.Configured) (last : Value)
    (readings : List (Except ReadError Datum)) : (s.evalRead last readings).2.Configured :=
  evalRead_keeps (fun _ d _ before => before.evalDatum d) last configured

/-- Every session that texts can lead to has its store in a configuration that is reached. -/
theorem Reached.configured {maxDepth fuel : Nat} (reached : Reached maxDepth fuel s) :
    s.Configured := by
  induction reached with
  | fresh => exact ⟨[], .single .newGlobal⟩
  | run source _ ih => exact ih.runRead _
  | evalText source _ ih => exact ih.evalRead _ _
  | evalDatum d _ ih => exact ih.evalDatum d

end Session

/-- Of three values of one configuration that is reached: `eq?` and `equal?` give what `same` and
`equal` say, and change nothing. Values that are the same are equal, equality goes both ways and is
transitive, and a pair equals itself whatever it holds. Unless the first of two holds a number that
is no number, they are equal just if they have the same contents. -/
theorem equality_of_reached {σ : Configuration} (reached : σ.Reached) {a b c : Value}
    (aHeld : a ∈ σ.held) (bHeld : b ∈ σ.held) (cHeld : c ∈ σ.held) :
    (∀ fuel span,
      apply fuel (.primitive .isSame) [a, b] span σ.store =
        .ok (.boolean span (a.same b)) σ.store ∧
      apply fuel (.primitive .isEqual) [a, b] span σ.store =
        .ok (.boolean span (a.equal b)) σ.store) ∧
    (a.same b → a.equal b) ∧
    (a.equal b ↔ b.equal a) ∧
    (a.equal b → b.equal c → a.equal c) ∧
    (a.isPair → a.equal a) ∧
    (¬ a.HasNaN → (a.equal b ↔ a.SameContents b)) := by
  obtain ⟨h, kept⟩ := reached.kept
  have aConforms := kept.held a aHeld
  have bConforms := kept.held b bHeld
  have cConforms := kept.held c cHeld
  refine ⟨fun _ _ => ⟨rfl, rfl⟩, Value.equal_of_same, ⟨Value.equal_symm, Value.equal_symm⟩,
    Value.equal_trans aConforms bConforms cConforms, fun pair => ?_, fun numbers => ?_⟩
  · cases a with
    | pair => exact Value.equal_pair.mpr (.inl rfl)
    | _ => cases pair
  · exact ⟨Value.sameContents_of_equal aConforms bConforms numbers, Value.SameContents.equal⟩

/-- The one element of a list is no number and does not equal itself; the list does. -/
theorem equality_of_reached_with_nan :
    let s := ((Session.fresh 3).run "(define p (list (- 1e999 1e999)))").session
    let nan : Value := .number ⟨16, 31⟩ (1 / 0 - 1 / 0)
    let p : Value := .pair ⟨10, 32⟩ 8 nan (.nil ⟨10, 32⟩)
    s.store.get? Session.globalFrame "p" = some p ∧ ¬ nan.equal nan ∧ p.HasNaN ∧
      ¬ p.SameContents p ∧ p.equal p := by
  intro s nan p
  have found : s.store.get? Session.globalFrame "p" = some p := by decide +kernel
  have unequal : ¬ nan.equal nan := by decide +kernel
  have noNumber : (1 / 0 - 1 / 0 : Float).isNaN := by decide +kernel
  have differs : ¬ p.SameContents p := fun same => unequal same.first.equal
  have begun : Session.Reached 3 Session.defaultFuel s :=
    .run "(define p (list (- 1e999 1e999)))" .fresh
  obtain ⟨held, reached⟩ := begun.configured
  have looked := reached.tail (.lookup Session.globalFrame "p" default)
  have given : p ∈ (Configuration.after ⟨s.store, held⟩
      (Machine.lookup Session.globalFrame "p" default)).held := by
    simp [Configuration.after, Machine.outcome_lookup, found, Except.toOption]
  obtain ⟨-, -, -, -, itself, -⟩ := equality_of_reached looked given given given
  exact ⟨found, unequal, .inl noNumber, differs, itself rfl⟩

end MiniScheme
