import MiniScheme.Proofs.Eval.Discipline

/-!
# What an evaluation cannot reach it neither changes nor sees

The frames that matter to an evaluation are those reached from its frame and its expression: along
parents, and from every closure that occurs in the expression or in a value bound in a frame
reached, to the frame the closure was made in. Every other frame is left as it was, and nothing that
stands in it has an influence on the outcome or on what becomes of the frames reached. The same
holds of a call, which reaches what its procedure and arguments reach.

The proof runs the evaluation on two stores side by side. A region is a set of frames and closures
that nothing in it leads out of; frames and closures that are made on the way belong to it from the
beginning, so the region stays the same while the stores grow.
-/
namespace MiniScheme

/-- The closure occurs in the value: as itself, in a part of a pair, or in the body of a closure
that occurs. -/
inductive Occurs (s : Store) (id : ClosureId) : Value → Prop where
  | itself (span : Span) (name : Option String) : Occurs s id (.procedure span (.closure id name))
  | car {car : Value} (span : Span) (mark : CellId) (cdr : Value) (inside : Occurs s id car) :
      Occurs s id (.pair span mark car cdr)
  | cdr {cdr : Value} (span : Span) (mark : CellId) (car : Value) (inside : Occurs s id cdr) :
      Occurs s id (.pair span mark car cdr)
  | body {outer : ClosureId} {c : Closure} {e : Value} (span : Span) (name : Option String)
      (made : s.closures[outer]? = some c) (member : e ∈ c.body) (inside : Occurs s id e) :
      Occurs s id (.procedure span (.closure outer name))

/-- The frames reached from some frames and values. -/
inductive Reach (s : Store) (roots : List FrameId) (values : List Value) : FrameId → Prop where
  | root {f : FrameId} (member : f ∈ roots) : Reach s roots values f
  | parent {g p : FrameId} {frame : Frame} (reached : Reach s roots values g)
      (there : s.frames[g]? = some frame) (inside : frame.parent = some p) : Reach s roots values p
  | captured {v : Value} {id : ClosureId} {c : Closure} (member : v ∈ values)
      (occurs : Occurs s id v) (made : s.closures[id]? = some c) : Reach s roots values c.frame
  | bound {g : FrameId} {frame : Frame} {name : String} {v : Value} {id : ClosureId} {c : Closure}
      (reached : Reach s roots values g) (there : s.frames[g]? = some frame)
      (binding : frame.bindings.get? name = some v) (occurs : Occurs s id v)
      (made : s.closures[id]? = some c) : Reach s roots values c.frame

/-- The closures that occur in the values or in a value bound in a frame reached. -/
def Met (s : Store) (roots : List FrameId) (values : List Value) (id : ClosureId) : Prop :=
  (∃ v ∈ values, Occurs s id v) ∨
    ∃ g frame name v, Reach s roots values g ∧ s.frames[g]? = some frame ∧
      frame.bindings.get? name = some v ∧ Occurs s id v

/-- Some frames and closures. -/
structure Region where
  frame : FrameId → Prop
  closure : ClosureId → Prop

namespace Region

/-- What is reached from some frames and values. -/
def reached (s : Store) (roots : List FrameId) (values : List Value) : Region :=
  ⟨Reach s roots values, Met s roots values⟩

/-- The region with all that is not made yet. -/
def withNew (r : Region) (s : Store) : Region :=
  ⟨fun g => r.frame g ∨ s.frames.size ≤ g, fun id => r.closure id ∨ s.closures.size ≤ id⟩

/-- The two stores hold as many frames, closures and pairs, and the same in the region. -/
structure Agree (r : Region) (s t : Store) : Prop where
  frameCount : s.frames.size = t.frames.size
  closureCount : s.closures.size = t.closures.size
  nextCell : s.nextCell = t.nextCell
  frames : ∀ g, r.frame g → s.frames[g]? = t.frames[g]?
  closures : ∀ id, r.closure id → s.closures[id]? = t.closures[id]?

/-- Nothing in the region leads out of it, and all that is not made yet belongs to it. -/
structure Closed (r : Region) (s : Store) : Prop where
  newFrame : ∀ g, s.frames.size ≤ g → r.frame g
  newClosure : ∀ id, s.closures.size ≤ id → r.closure id
  parent : ∀ g frame p, r.frame g → s.frames[g]? = some frame → frame.parent = some p → r.frame p
  bindings : ∀ g frame, r.frame g → s.frames[g]? = some frame → frame.bindings.Within r.closure
  captured : ∀ id c, r.closure id → s.closures[id]? = some c → r.frame c.frame
  body : ∀ id c, r.closure id → s.closures[id]? = some c → ∀ e ∈ c.body, e.Within r.closure

end Region

section Reach

variable {s : Store} {roots : List FrameId} {values : List Value}

theorem Occurs.of_body {id inner : ClosureId} {v e : Value} {c : Closure} (occurs : Occurs s id v)
    (made : s.closures[id]? = some c) (member : e ∈ c.body) (inside : Occurs s inner e) :
    Occurs s inner v := by
  induction occurs with
  | itself span name => exact .body span name made member inside
  | car span mark cdr _ ih => exact .car span mark cdr ih
  | cdr span mark car _ ih => exact .cdr span mark car ih
  | body span name made' member' _ ih => exact .body span name made' member' ih

theorem Value.within_of_occurs {C : ClosureId → Prop} {v : Value}
    (all : ∀ id, Occurs s id v → C id) : v.Within C := by
  induction v with
  | atom => trivial
  | nil => trivial
  | pair span mark car cdr ihCar ihCdr =>
    exact ⟨ihCar fun id occurs => all id (.car span mark cdr occurs),
      ihCdr fun id occurs => all id (.cdr span mark car occurs)⟩
  | leaf span r =>
    cases r with
    | unspecified => trivial
    | procedure p =>
      cases p with
      | primitive => trivial
      | closure id name => exact all id (.itself span name)

theorem Met.captured {id : ClosureId} {c : Closure} (met : Met s roots values id)
    (made : s.closures[id]? = some c) : Reach s roots values c.frame := by
  obtain ⟨v, member, occurs⟩ | ⟨g, frame, name, v, reached, there, binding, occurs⟩ := met
  · exact .captured member occurs made
  · exact .bound reached there binding occurs made

theorem Met.of_body {id inner : ClosureId} {c : Closure} {e : Value} (met : Met s roots values id)
    (made : s.closures[id]? = some c) (member : e ∈ c.body) (inside : Occurs s inner e) :
    Met s roots values inner := by
  obtain ⟨v, memberV, occurs⟩ | ⟨g, frame, name, v, reached, there, binding, occurs⟩ := met
  · exact .inl ⟨v, memberV, occurs.of_body made member inside⟩
  · exact .inr ⟨g, frame, name, v, reached, there, binding, occurs.of_body made member inside⟩

/-- What is reached is a region, once it is given what is not made yet. -/
theorem Region.closed_reached (s : Store) (roots : List FrameId) (values : List Value) :
    ((reached s roots values).withNew s).Closed s := by
  have noFrame {g : FrameId} {frame : Frame} (new : s.frames.size ≤ g)
      (there : s.frames[g]? = some frame) : False := by
    rw [Array.getElem?_eq_none new] at there
    cases there
  have noClosure {id : ClosureId} {c : Closure} (new : s.closures.size ≤ id)
      (made : s.closures[id]? = some c) : False := by
    rw [Array.getElem?_eq_none new] at made
    cases made
  constructor
  case newFrame => exact fun _ => .inr
  case newClosure => exact fun _ => .inr
  case parent =>
    rintro g frame p (reach | new) there inside
    · exact .inl (.parent reach there inside)
    · exact (noFrame new there).elim
  case bindings =>
    rintro g frame (reach | new) there
    · exact fun name v binding => Value.within_of_occurs fun id occurs =>
        .inl (.inr ⟨g, frame, name, v, reach, there, binding, occurs⟩)
    · exact (noFrame new there).elim
  case captured =>
    rintro id c (met | new) made
    · exact .inl (met.captured made)
    · exact (noClosure new made).elim
  case body =>
    rintro id c (met | new) made e member
    · exact Value.within_of_occurs fun inner inside => .inl (met.of_body made member inside)
    · exact (noClosure new made).elim

/-- A region that holds all closures of a value holds those in the bodies of these. -/
theorem Region.Closed.closure_of_occurs {r : Region} {id : ClosureId} {v : Value}
    (closed : r.Closed s) (within : v.Within r.closure) (occurs : Occurs s id v) :
    r.closure id := by
  induction occurs with
  | itself => exact within
  | car _ _ _ _ ih => exact ih within.1
  | cdr _ _ _ _ ih => exact ih within.2
  | body _ _ made member _ ih => exact ih (closed.body _ _ within made _ member)

/-- What is reached is the least region with the roots and the values in it. -/
theorem Region.Closed.frame_of_reach {r : Region} {g : FrameId} (closed : r.Closed s)
    (rootsIn : ∀ f ∈ roots, r.frame f) (valuesIn : ∀ v ∈ values, v.Within r.closure)
    (reach : Reach s roots values g) : r.frame g := by
  induction reach with
  | root member => exact rootsIn _ member
  | parent _ there inside ih => exact closed.parent _ _ _ ih there inside
  | captured member occurs made =>
    exact closed.captured _ _ (closed.closure_of_occurs (valuesIn _ member) occurs) made
  | bound _ there binding occurs made ih =>
    have within := closed.bindings _ _ ih there _ _ binding
    exact closed.captured _ _ (closed.closure_of_occurs within occurs) made

end Reach

namespace Region

variable {r : Region} {s t : Store} {f : FrameId}

/-- The walk outward from a frame of the region stays in it, so it finds the same in both stores. -/
theorem find?_agree (closed : r.Closed s) (agree : r.Agree s t) (inFrame : r.frame f)
    (name : String) : s.find? f name = t.find? f name :=
  Store.find?_congr (fun f frame p inF there inside _ => closed.parent f frame p inF there inside)
    agree.frames inFrame name

theorem frame_of_find? {g : FrameId} {name : String} {v : Value} (closed : r.Closed s)
    (inFrame : r.frame f) (found : s.find? f name = some (g, v)) : r.frame g := by
  fun_induction Store.find? s f name with
  | case1 => cases found
  | case2 =>
    cases found
    exact inFrame
  | case3 f frame present absent p parent older ih =>
    exact ih (closed.parent f frame p inFrame present parent) found
  | case4 => cases found
  | case5 => cases found

theorem within_of_find? {g : FrameId} {name : String} {v : Value} (closed : r.Closed s)
    (inFrame : r.frame f) (found : s.find? f name = some (g, v)) : v.Within r.closure := by
  obtain ⟨frame, there, binding⟩ := Store.find?_eq_some found
  exact closed.bindings g frame (frame_of_find? closed inFrame found) there name v binding

/-- One store has become another while the region was kept to, and so has a store beside it. -/
structure Follows (r : Region) (s s' t' : Store) : Prop where
  closed : r.Closed s'
  agree : r.Agree s' t'
  untouched : ∀ g, ¬ r.frame g → s'.frames[g]? = s.frames[g]?

theorem follows_refl (closed : r.Closed s) (agree : r.Agree s t) : r.Follows s s t :=
  ⟨closed, agree, fun _ _ => rfl⟩

theorem Follows.trans {s' s'' t' t'' : Store} (first : r.Follows s s' t')
    (rest : r.Follows s' s'' t'') : r.Follows s s'' t'' :=
  ⟨rest.closed, rest.agree, fun g outside =>
    (rest.untouched g outside).trans (first.untouched g outside)⟩

theorem follows_define {g : FrameId} {v : Value} (name : String) (closed : r.Closed s)
    (agree : r.Agree s t) (inFrame : r.frame g) (within : v.Within r.closure) :
    r.Follows s (s.define g name v) (t.define g name v) := by
  have size (s : Store) : (s.define g name v).frames.size = s.frames.size := Array.size_modify
  have kept {h : FrameId} {after : Frame} (there : (s.define g name v).frames[h]? = some after) :
      ∃ before, s.frames[h]? = some before ∧ after.parent = before.parent ∧
        (before.bindings.Within r.closure → after.bindings.Within r.closure) := by
    rw [Store.frames_define] at there
    split at there
    · obtain ⟨before, was, rfl⟩ := Option.map_eq_some_iff.mp there
      exact ⟨before, was, rfl, fun old => Bindings.within_put name old within⟩
    · exact ⟨after, there, rfl, id⟩
  constructor
  case untouched =>
    intro h outside
    rw [Store.frames_define, if_neg]
    rintro rfl
    exact outside inFrame
  case agree =>
    refine ⟨?_, agree.closureCount, agree.nextCell, ?_, agree.closures⟩
    · rw [size, size, agree.frameCount]
    · intro h inFrame'
      rw [Store.frames_define, Store.frames_define, agree.frames h inFrame']
  case closed =>
    refine ⟨?_, closed.newClosure, ?_, ?_, closed.captured, closed.body⟩
    · rw [size]
      exact closed.newFrame
    · intro h after p inFrame' there inside
      obtain ⟨before, was, parent, -⟩ := kept there
      exact closed.parent h before p inFrame' was (parent ▸ inside)
    · intro h after inFrame' there
      obtain ⟨before, was, -, bindings⟩ := kept there
      exact bindings (closed.bindings h before inFrame' was)

/-- A new frame belongs to the region. -/
theorem follows_push {parent : FrameId} {bindings : CellId → Bindings × CellId}
    (closed : r.Closed s) (agree : r.Agree s t) (inParent : r.frame parent)
    (within : ∀ next, (bindings next).1.Within r.closure) :
    r.Follows s
      { s with
        frames := s.frames.push ⟨some parent, (bindings s.nextCell).1⟩
        nextCell := (bindings s.nextCell).2 }
      { t with
        frames := t.frames.push ⟨some parent, (bindings t.nextCell).1⟩
        nextCell := (bindings t.nextCell).2 } := by
  have known {h : FrameId} {frame : Frame}
      (there : (s.frames.push ⟨some parent, (bindings s.nextCell).1⟩)[h]? = some frame) :
      s.frames[h]? = some frame ∨ frame = ⟨some parent, (bindings s.nextCell).1⟩ := by
    rw [Array.getElem?_push] at there
    split at there
    · cases there
      exact .inr rfl
    · exact .inl there
  constructor
  case untouched =>
    intro h outside
    have old : h ≠ s.frames.size := by
      rintro rfl
      exact outside (closed.newFrame _ (Nat.le_refl _))
    simp [Array.getElem?_push, old]
  case agree =>
    refine ⟨?_, agree.closureCount, ?_, ?_, agree.closures⟩
    · simp [agree.frameCount]
    · simp [agree.nextCell]
    · intro h inFrame'
      simp [Array.getElem?_push, agree.frameCount, agree.nextCell, agree.frames h inFrame']
  case closed =>
    refine ⟨?_, closed.newClosure, ?_, ?_, closed.captured, closed.body⟩
    · intro h new
      simp only [Array.size_push] at new
      exact closed.newFrame h (by omega)
    · intro h frame p inFrame' there inside
      obtain old | rfl := known there
      · exact closed.parent h frame p inFrame' old inside
      · cases inside
        exact inParent
    · intro h frame inFrame' there
      obtain old | rfl := known there
      · exact closed.bindings h frame inFrame' old
      · exact within s.nextCell

theorem follows_addClosure {c : Closure} (closed : r.Closed s) (agree : r.Agree s t)
    (inFrame : r.frame c.frame) (within : ∀ e ∈ c.body, e.Within r.closure) :
    r.Follows s (s.addClosure c).2 (t.addClosure c).2 := by
  have known {id : ClosureId} {c' : Closure} (made : (s.closures.push c)[id]? = some c') :
      s.closures[id]? = some c' ∨ c' = c := by
    rw [Array.getElem?_push] at made
    split at made
    · cases made
      exact .inr rfl
    · exact .inl made
  refine ⟨?_, ?_, fun _ _ => rfl⟩
  · refine ⟨closed.newFrame, ?_, closed.parent, closed.bindings, ?_, ?_⟩
    · intro id new
      simp only [Store.addClosure, Array.size_push] at new
      exact closed.newClosure id (by omega)
    · intro id c' held made
      obtain old | rfl := known made
      · exact closed.captured id c' held old
      · exact inFrame
    · intro id c' held made
      obtain old | rfl := known made
      · exact closed.body id c' held old
      · exact within
  · refine ⟨agree.frameCount, ?_, agree.nextCell, agree.frames, ?_⟩
    · simp [Store.addClosure, agree.closureCount]
    · intro id held
      simp [Store.addClosure, Array.getElem?_push, agree.closureCount, agree.closures id held]

theorem follows_nextCell (next : CellId → CellId) (closed : r.Closed s) (agree : r.Agree s t) :
    r.Follows s { s with nextCell := next s.nextCell } { t with nextCell := next t.nextCell } :=
  ⟨⟨closed.newFrame, closed.newClosure, closed.parent, closed.bindings, closed.captured,
      closed.body⟩,
    ⟨agree.frameCount, agree.closureCount, congrArg next agree.nextCell, agree.frames,
      agree.closures⟩,
    fun _ _ => rfl⟩

/-- From both stores the computation has one outcome, and keeps to the region. -/
structure Confines (r : Region) {α : Type} (m : Machine α) (P : α → Prop) (s t : Store) : Prop where
  outcome : m.outcome s = m.outcome t
  result : ∀ a, m.outcome s = .ok a → P a
  follows : r.Follows s (m.after s) (m.after t)

theorem Confines.bind {α β : Type} {m : Machine α} {next : α → Machine β} {P : α → Prop}
    {Q : β → Prop} (first : r.Confines m P s t)
    (rest : ∀ a, P a → ∀ s t, r.Closed s → r.Agree s t → r.Confines (next a) Q s t) :
    r.Confines (m >>= next) Q s t := by
  cases given : m.outcome s with
  | ok a =>
    have given' := first.outcome.symm.trans given
    obtain ⟨outcome, result, follows⟩ := rest a (first.result a given) (m.after s) (m.after t)
      first.follows.closed first.follows.agree
    constructor
    · rwa [Machine.outcome_bind, Machine.outcome_bind, given, given']
    · rwa [Machine.outcome_bind, given]
    · rw [Machine.after_bind, Machine.after_bind, given, given']
      exact first.follows.trans follows
  | error why =>
    have given' := first.outcome.symm.trans given
    constructor
    · rw [Machine.outcome_bind, Machine.outcome_bind, given, given']
    · rw [Machine.outcome_bind, given]
      exact fun _ none => nomatch none
    · rw [Machine.after_bind, Machine.after_bind, given, given']
      exact first.follows

theorem confines_lookup (name : String) (span : Span) (inFrame : r.frame f) (closed : r.Closed s)
    (agree : r.Agree s t) :
    r.Confines (Machine.lookup f name span) (Value.Within r.closure) s t := by
  have same := find?_agree closed agree inFrame name
  constructor
  case outcome =>
    rw [Machine.outcome_lookup, Machine.outcome_lookup, Store.get?, Store.get?, same]
  case result =>
    intro v given
    rw [Machine.outcome_lookup, Store.get?] at given
    cases place : s.find? f name with
    | none =>
      rw [place] at given
      cases given
    | some found =>
      rw [place] at given
      cases given
      exact within_of_find? closed inFrame place
  case follows =>
    rw [Machine.after_lookup, Machine.after_lookup]
    exact follows_refl closed agree

theorem confines_assign {v : Value} (name : String) (span : Span) (inFrame : r.frame f)
    (within : v.Within r.closure) (closed : r.Closed s) (agree : r.Agree s t) :
    r.Confines (Machine.assign f name v span) (fun _ => True) s t := by
  have same := find?_agree closed agree inFrame name
  refine ⟨?_, fun _ _ => trivial, ?_⟩
  · rw [Machine.outcome_assign, Machine.outcome_assign, same]
  · rw [Machine.after_assign, Machine.after_assign, ← same]
    cases place : s.find? f name with
    | none => exact follows_refl closed agree
    | some found =>
      exact follows_define name closed agree (frame_of_find? closed inFrame place) within

/-- In both stores the new frame has the same name, and what is evaluated in it is the same. -/
theorem confines_enter {parent : FrameId} {α : Type} {P : α → Prop}
    {bindings : CellId → Bindings × CellId} {body : FrameId → Machine α}
    (inParent : r.frame parent) (within : ∀ next, (bindings next).1.Within r.closure)
    (inside : ∀ inner, r.frame inner →
      ∀ s t, r.Closed s → r.Agree s t → r.Confines (body inner) P s t)
    (closed : r.Closed s) (agree : r.Agree s t) :
    r.Confines (Machine.make (fun s => (s.frames.size, { s with
      frames := s.frames.push ⟨some parent, (bindings s.nextCell).1⟩
      nextCell := (bindings s.nextCell).2 })) >>= body) P s t := by
  have entered := follows_push closed agree inParent within
  have inner := inside s.frames.size (closed.newFrame _ (Nat.le_refl _)) _ _ entered.closed
    entered.agree
  constructor
  case outcome =>
    change (body s.frames.size).outcome _ = (body t.frames.size).outcome _
    rw [← agree.frameCount]
    exact inner.outcome
  case result => exact inner.result
  case follows =>
    change r.Follows s ((body s.frames.size).after _) ((body t.frames.size).after _)
    rw [← agree.frameCount]
    exact entered.trans inner.follows

theorem confines_fetch {α : Type} {P : α → Prop} {id : ClosureId} {next : Store → Machine α}
    (held : r.closure id)
    (only : ∀ s t : Store, s.closures[id]? = t.closures[id]? → next s = next t)
    (rest : r.Confines (next s) P s t) (agree : r.Agree s t) :
    r.Confines (get >>= next) P s t := by
  have same := only s t (agree.closures id held)
  constructor
  case outcome =>
    change (next s).outcome s = (next t).outcome t
    rw [← same]
    exact rest.outcome
  case result => exact rest.result
  case follows =>
    change r.Follows s ((next s).after s) ((next t).after t)
    rw [← same]
    exact rest.follows

/-- Computations that neither leave a region nor see what is outside. -/
def confinement (r : Region) : Discipline where
  frame := r.frame
  closure := r.closure
  Obeys _ _ m P := ∀ s t, r.Closed s → r.Agree s t → r.Confines m P s t
  pure result _ _ closed agree :=
    ⟨rfl, fun _ same => by cases same; exact result, follows_refl closed agree⟩
  stop _ _ _ closed agree := ⟨rfl, (fun _ none => nomatch none), follows_refl closed agree⟩
  bind first rest s t closed agree := (first s t closed agree).bind rest
  lookup name span inFrame _ _ := confines_lookup name span inFrame
  assign name span inFrame within _ _ := confines_assign name span inFrame within
  define name inFrame within _ _ closed agree :=
    ⟨rfl, fun _ _ => trivial, follows_define name closed agree inFrame within⟩
  enter inParent within inside _ _ := confines_enter inParent within inside
  makeClosure inFrame within s t closed agree :=
    ⟨congrArg Except.ok agree.closureCount,
      fun _ same => by cases same; exact closed.newClosure _ (Nat.le_refl _),
      follows_addClosure closed agree inFrame within⟩
  fetch held only rest s t closed agree :=
    have fetched (c) (made) := ⟨closed.captured _ c held made, closed.body _ c held made⟩
    confines_fetch held only (rest s fetched s t closed agree) agree
  makePairs pairs within s t closed agree :=
    ⟨congrArg (fun next => Except.ok (pairs next).1) agree.nextCell,
      fun _ same => by cases same; exact within _,
      follows_nextCell (fun next => (pairs next).2) closed agree⟩

/-- Agreement on what is reached is agreement on that and what is not made yet. -/
theorem Agree.withNew (agree : r.Agree s t) : (r.withNew s).Agree s t := by
  refine ⟨agree.frameCount, agree.closureCount, agree.nextCell, ?_, ?_⟩
  · rintro g (reach | new)
    · exact agree.frames g reach
    · rw [Array.getElem?_eq_none new, Array.getElem?_eq_none (agree.frameCount ▸ new)]
  · rintro id (met | new)
    · exact agree.closures id met
    · rw [Array.getElem?_eq_none new, Array.getElem?_eq_none (agree.closureCount ▸ new)]

theorem agree_refl (r : Region) (s : Store) : r.Agree s s :=
  ⟨rfl, rfl, rfl, fun _ _ => rfl, fun _ _ => rfl⟩

end Region

/-- A computation that from a store works only on what is reached from some frames and values: other
frames stay as they are, and what is in them (or in closures that nothing reached holds) makes no
difference, neither to the outcome nor to the frames and closures reached or new. -/
structure Encapsulated {α : Type} (m : Machine α) (s : Store) (roots : List FrameId)
    (values : List Value) : Prop where
  untouched : ∀ g < s.frames.size, ¬ Reach s roots values g →
    (m.after s).frames[g]? = s.frames[g]?
  independent : ∀ t, (Region.reached s roots values).Agree s t →
    m.outcome s = m.outcome t ∧
      ((Region.reached s roots values).withNew s).Agree (m.after s) (m.after t)

theorem encapsulated_of_confines {α : Type} {m : Machine α} {P : α → Prop} {s : Store}
    {roots : List FrameId} {values : List Value}
    (confines : ∀ t, ((Region.reached s roots values).withNew s).Agree s t →
      ((Region.reached s roots values).withNew s).Confines m P s t) :
    Encapsulated m s roots values := by
  constructor
  case untouched =>
    intro g old unreached
    apply (confines s (Region.agree_refl _ s)).follows.untouched g
    rintro (reach | new)
    · exact unreached reach
    · exact Nat.not_le.mpr old new
  case independent =>
    intro t agree
    have both := confines t agree.withNew
    exact ⟨both.outcome, both.follows.agree⟩

/-- Values that roots are reached from hold only closures met. -/
theorem allows_root {s : Store} {roots : List FrameId} {values : List Value} {v : Value}
    (member : v ∈ values) :
    (Region.confinement ((Region.reached s roots values).withNew s)).Allows v :=
  Value.within_of_occurs fun _ occurs => .inl (.inl ⟨v, member, occurs⟩)

/-- An evaluation works only on what is reached from its frame and its expression, a call only on
what is reached from its procedure and its arguments. -/
theorem eval_encapsulated (fuel : Nat) (s : Store) :
    (∀ f e, Encapsulated (eval fuel f e) s [f] [e]) ∧
    ∀ p args span, Encapsulated (apply fuel p args span) s [] (.procedure span p :: args) := by
  constructor
  · intro f e
    apply encapsulated_of_confines
    intro t agree
    let r := (Region.reached s [f] [e]).withNew s
    have inFrame : r.frame f := .inl (.root (List.mem_singleton_self f))
    exact r.confinement.obeys_eval fuel inFrame (allows_root (List.mem_singleton_self e)) s t
      (Region.closed_reached s [f] [e]) agree
  · intro p args span
    apply encapsulated_of_confines
    intro t agree
    exact (Region.confinement _).obeys_apply (f := 0) fuel p span (allows_root List.mem_cons_self)
      (fun v member => allows_root (List.mem_cons_of_mem _ member)) s t
      (Region.closed_reached s [] _) agree

/-- Two closures of one maker, each with a flag of its own in a frame of its own. Calling the first
sets its flag and leaves that of the second alone, and would do the same were the second frame
another. -/
theorem eval_encapsulated_of_flags :
    let word (name : String) : Value := .atom default (.symbol name)
    let body := (Store.empty.addList (.nil default)
      [word "set!", word "flag", .boolean default true]).1
    let flag (b : Bool) : Frame := ⟨some 0, [("flag", .boolean default b)]⟩
    let closures : Array Closure := #[⟨[], false, [body], 1⟩, ⟨[], false, [body], 2⟩]
    let s : Store := ⟨#[⟨none, []⟩, flag false, flag false], closures, 0⟩
    let t : Store := ⟨#[⟨none, []⟩, flag false, ⟨none, []⟩], closures, 0⟩
    let call := apply 9 (.closure 0 none) [] default
    ¬ Reach s [] [.procedure default (.closure 0 none)] 2 ∧
      (call.after s).frames[2]? = some (flag false) ∧
      (call.after s).frames[1]? = some (flag true) ∧
      call.outcome s = call.outcome t ∧ (call.after s).frames[1]? = (call.after t).frames[1]? := by
  intro word body flag closures s t call
  have frames {g : FrameId} {frame : Frame} (there : s.frames[g]? = some frame) :
      frame = ⟨none, []⟩ ∨ frame = flag false := by
    simpa [s] using Array.mem_of_getElem? there
  have first {id : ClosureId} {c : Closure} (other : id ≠ 1) (made : s.closures[id]? = some c) :
      c = ⟨[], false, [body], 1⟩ := by
    match id with
    | 0 => exact (Option.some.inj made).symm
    | 1 => exact absurd rfl other
  have region : Region.Closed ⟨(· ≠ 2), (· ≠ 1)⟩ s := by
    constructor
    case newFrame => exact fun g new => Nat.ne_of_gt new
    case newClosure => exact fun id new => Nat.ne_of_gt new
    case parent =>
      intro g frame p _ there inside
      obtain rfl | rfl := frames there
      · cases inside
      · cases inside
        decide
    case bindings =>
      intro g frame _ there
      have empty : Bindings.Within (· ≠ 1) [] := fun _ _ none => by cases none
      obtain rfl | rfl := frames there
      · exact empty
      · exact Bindings.within_put "flag" empty trivial
    case captured =>
      intro id c other made
      rw [first other made]
      decide
    case body =>
      intro id c other made e member
      rw [first other made] at member
      cases List.mem_singleton.mp member
      exact ⟨trivial, trivial, trivial, trivial⟩
  have unreached : ¬ Reach s [] [.procedure default (.closure 0 none)] 2 := fun reach =>
    region.frame_of_reach (by simp) (by simp [Value.Within]) reach rfl
  have own : Reach s [] [.procedure default (.closure 0 none)] closures[0].frame :=
    .captured (List.mem_singleton_self _) (.itself default none) rfl
  have agree : (Region.reached s [] [.procedure default (.closure 0 none)]).Agree s t := by
    refine ⟨rfl, rfl, rfl, ?_, fun _ _ => rfl⟩
    intro g reach
    match g with
    | 0 => rfl
    | 1 => rfl
    | 2 => exact absurd reach unreached
    | g + 3 => rfl
  obtain ⟨untouched, independent⟩ := (eval_encapsulated 9 s).2 (.closure 0 none) [] default
  obtain ⟨outcome, after⟩ := independent t agree
  have set : (call.after s).frames[1]? = some (flag true) := by decide +kernel
  exact ⟨unreached, untouched 2 (by decide) unreached, set, outcome, after.frames 1 (.inl own)⟩

end MiniScheme
