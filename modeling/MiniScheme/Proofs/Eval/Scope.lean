import MiniScheme.Proofs.Eval.Discipline

/-!
# Definitions stay in their scope

To evaluate an expression in a frame may bind new names in that frame, and in frames made on the
way. Every other frame that was there before binds the same names after, whatever was called,
assigned or left unfinished; no frame loses a name or gets another parent. A call, which is made
for no frame, gives no new name to any frame that was there.

Nothing is asked of the store: parents and closures may point anywhere.
-/
namespace MiniScheme

/-- Some value is bound to the name. -/
def Frame.Binds (frame : Frame) (name : String) : Prop := ∃ v, frame.bindings.get? name = some v

namespace Frame

/-- What may become of a frame: its parent and its names stay, and it gains names only if `mayGain`
holds. -/
structure Becomes (mayGain : Prop) (before after : Frame) : Prop where
  parent : after.parent = before.parent
  kept : ∀ name, before.Binds name → after.Binds name
  gained : ∀ name, after.Binds name → before.Binds name ∨ mayGain

variable {mayGain : Prop} {a b c : Frame}

theorem Becomes.refl (a : Frame) : Becomes mayGain a a := ⟨rfl, fun _ => id, fun _ => .inl⟩

theorem Becomes.trans (first : Becomes mayGain a b) (rest : Becomes mayGain b c) :
    Becomes mayGain a c := by
  refine ⟨rest.parent.trans first.parent, fun name => rest.kept name ∘ first.kept name, ?_⟩
  intro name bound
  obtain before | may := rest.gained name bound
  · exact first.gained name before
  · exact .inr may

theorem Becomes.mono {mayGain' : Prop} (becomes : Becomes mayGain a b)
    (weaker : mayGain → mayGain') : Becomes mayGain' a b :=
  ⟨becomes.parent, becomes.kept, fun name bound => (becomes.gained name bound).imp_right weaker⟩

theorem binds_put (frame : Frame) (name other : String) (v : Value) :
    Binds { frame with bindings := frame.bindings.put name v } other ↔
      other = name ∨ frame.Binds other := by
  unfold Binds
  simp only [Bindings.get?_put]
  by_cases same : name = other
  · simp [same]
  · simp [same, Ne.symm same]

/-- Binding a name gains that name, unless it was bound. -/
theorem becomes_put (frame : Frame) (name : String) (v : Value)
    (mayBind : frame.Binds name ∨ mayGain) :
    Becomes mayGain frame { frame with bindings := frame.bindings.put name v } := by
  refine ⟨rfl, fun other bound => (binds_put frame name other v).mpr (.inr bound), ?_⟩
  intro other bound
  obtain rfl | before := (binds_put frame name other v).mp bound
  · exact mayBind
  · exact .inl before

end Frame

namespace Store

/-- Every frame is still there, and none but `f` has new names. -/
def Scoped (f : FrameId) (s s' : Store) : Prop :=
  ∀ g before, s.frames[g]? = some before →
    ∃ after, s'.frames[g]? = some after ∧ Frame.Becomes (g = f) before after

variable {f : FrameId} {s s' s'' : Store}

theorem scoped_of_frames_eq (f : FrameId) (same : s'.frames = s.frames) : Scoped f s s' := by
  intro g before existed
  exact ⟨before, by rwa [same], .refl before⟩

theorem Scoped.trans (first : Scoped f s s') (rest : Scoped f s' s'') : Scoped f s s'' := by
  intro g before existed
  obtain ⟨middle, there, becomes⟩ := first g before existed
  obtain ⟨after, there', becomes'⟩ := rest g middle there
  exact ⟨after, there', becomes.trans becomes'⟩

/-- What is evaluated in a new frame gives names to no frame that was there. -/
theorem scoped_of_push {frame : Frame} (pushed : s'.frames = s.frames.push frame)
    (inside : Scoped s.frames.size s' s'') : Scoped f s s'' := by
  intro g before existed
  obtain ⟨old, -⟩ := Array.getElem?_eq_some_iff.mp existed
  have there : s'.frames[g]? = some before := by
    rw [pushed, Array.getElem?_push_lt old, ← Array.getElem?_eq_getElem old, existed]
  obtain ⟨after, there', becomes⟩ := inside g before there
  exact ⟨after, there', becomes.mono fun new => absurd new (Nat.ne_of_lt old)⟩

/-- A binding in `g` is one of a name bound there before, or `g` is the frame of the evaluation. -/
theorem scoped_define {g : FrameId} {name : String} (v : Value)
    (mayBind : ∀ frame, s.frames[g]? = some frame → frame.Binds name ∨ g = f) :
    Scoped f s (s.define g name v) := by
  intro h before existed
  rw [frames_define]
  split
  · next same =>
    subst same
    exact ⟨_, by rw [existed]; rfl, Frame.becomes_put before name v (mayBind before existed)⟩
  · exact ⟨before, existed, .refl before⟩

end Store

theorem Store.scoped_assign (f : FrameId) (name : String) (v : Value) (span : Span) (s : Store) :
    Store.Scoped f s ((Machine.assign f name v span).after s) := by
  rw [Machine.after_assign]
  cases place : s.find? f name with
  | none => exact Store.scoped_of_frames_eq f rfl
  | some found =>
    -- the name is bound where it is found, so that frame gains nothing
    obtain ⟨frame, there, bound⟩ := Store.find?_eq_some place
    refine Store.scoped_define v fun frame' there' => ?_
    cases there.symm.trans there'
    exact .inl ⟨found.2, bound⟩

/-- The computation gives names to the frame it is run for and to no other that was there. -/
structure GivesNamesTo (f : FrameId) {α : Type} (m : Machine α) (P : α → Prop) (s : Store) :
    Prop where
  result : ∀ a, m.outcome s = .ok a → P a
  frames : Store.Scoped f s (m.after s)

theorem GivesNamesTo.bind {f : FrameId} {α β : Type} {m : Machine α} {next : α → Machine β}
    {P : α → Prop} {Q : β → Prop} {s : Store} (first : GivesNamesTo f m P s)
    (rest : ∀ a, P a → ∀ s, GivesNamesTo f (next a) Q s) : GivesNamesTo f (m >>= next) Q s := by
  have begins : m.Leads (Store.Scoped f) P s := ⟨first.result, first.frames⟩
  have goesOn (a : α) (result : P a) (s : Store) : (next a).Leads (Store.Scoped f) Q s :=
    ⟨(rest a result s).result, (rest a result s).frames⟩
  have both := begins.bind Store.Scoped.trans goesOn
  exact ⟨both.result, both.related⟩

def scoping : Discipline where
  frame _ := True
  closure _ := True
  Obeys f _ m P := ∀ s, GivesNamesTo f m P s
  pure result _ := ⟨fun _ same => by cases same; exact result, Store.scoped_of_frames_eq _ rfl⟩
  stop _ _ := ⟨(fun _ none => nomatch none), Store.scoped_of_frames_eq _ rfl⟩
  bind first rest s := (first s).bind rest
  lookup _ _ _ s := ⟨fun v _ => Value.within_of_forall (fun _ => trivial) v,
    Store.scoped_of_frames_eq _ (by rw [Machine.after_lookup])⟩
  assign name span _ _ s := ⟨fun _ _ => trivial, Store.scoped_assign _ name _ span s⟩
  define _ _ _ _ := ⟨fun _ _ => trivial, Store.scoped_define _ fun _ _ => .inr rfl⟩
  enter _ _ inside s :=
    have obeys := inside s.frames.size trivial _
    ⟨obeys.result, Store.scoped_of_push rfl obeys.frames⟩
  makeClosure _ _ _ := ⟨fun _ _ => trivial, Store.scoped_of_frames_eq _ rfl⟩
  fetch _ _ rest s :=
    have obeys := rest s (fun _ _ =>
      ⟨trivial, fun e _ => Value.within_of_forall (fun _ => trivial) e⟩) s
    ⟨obeys.result, obeys.frames⟩
  makePairs _ within _ :=
    ⟨fun v _ => Value.within_of_forall (fun _ => trivial) v, Store.scoped_of_frames_eq _ rfl⟩

theorem scoping_allows (v : Value) : scoping.Allows v := Value.within_of_forall (fun _ => trivial) v

theorem eval_scoped (fuel : Nat) (f : FrameId) (e : Value) (s : Store) :
    Store.Scoped f s ((eval fuel f e).after s) :=
  (scoping.obeys_eval fuel trivial (scoping_allows e) s).frames

/-- A call is made for no frame, so it may be looked at from any. -/
theorem apply_scoped (fuel : Nat) (p : Procedure) (args : List Value) (span : Span) (f : FrameId)
    (s : Store) : Store.Scoped f s ((apply fuel p args span).after s) :=
  (scoping.obeys_apply fuel p span (scoping_allows (.procedure span p))
    (fun v _ => scoping_allows v) s).frames

/-- Evaluating in a frame leaves every other frame with the names it had, and every frame with its
parent and at least the names it had, whether it ends with a value or not. A call leaves every frame
with exactly the names it had. -/
theorem eval_keeps_scopes (fuel : Nat) (s : Store) (g : FrameId) (before : Frame)
    (existed : s.frames[g]? = some before) :
    (∀ f e, ∃ after, ((eval fuel f e).after s).frames[g]? = some after ∧
      after.parent = before.parent ∧
      (∀ name, before.Binds name → after.Binds name) ∧
      (g ≠ f → ∀ name, after.Binds name → before.Binds name)) ∧
    ∀ p args span, ∃ after, ((apply fuel p args span).after s).frames[g]? = some after ∧
      after.parent = before.parent ∧ ∀ name, after.Binds name ↔ before.Binds name := by
  constructor
  · intro f e
    obtain ⟨after, there, becomes⟩ := eval_scoped fuel f e s g before existed
    refine ⟨after, there, becomes.parent, becomes.kept, ?_⟩
    intro other name bound
    exact (becomes.gained name bound).resolve_right other
  · intro p args span
    obtain ⟨after, there, becomes⟩ := apply_scoped fuel p args span (g + 1) s g before existed
    refine ⟨after, there, becomes.parent, fun name => ⟨fun bound => ?_, becomes.kept name⟩⟩
    exact (becomes.gained name bound).resolve_right (Nat.ne_of_lt (Nat.lt_succ_self g))

/-- A scope inside another defines `y` and assigns `x`; the outer one binds `x` and nothing else. -/
theorem eval_keeps_scopes_of_let :
    let word (name : String) : Value := .atom default (.symbol name)
    let form (parts : List Value) : Value := (Store.empty.addList (.nil default) parts).1
    let s : Store := ⟨#[⟨none, [("x", .number default 0)]⟩, ⟨some 0, []⟩], #[], 0⟩
    let e := form [word "let", .nil default, form [word "define", word "y", word "x"],
      form [word "set!", word "x", word "y"]]
    s.frames[0]? = some ⟨none, [("x", .number default 0)]⟩ ∧
    ∃ after, ((eval 9 1 e).after s).frames[0]? = some after ∧ after.parent = none ∧
      ∀ name, after.Binds name ↔ name = "x" := by
  intro word form s e
  have outer (name : String) :
      Frame.Binds ⟨none, [("x", .number default 0)]⟩ name ↔ name = "x" := by
    simp [Frame.Binds, Bindings.get?, eq_comm]
  obtain ⟨after, there, parent, kept, closed⟩ := (eval_keeps_scopes 9 s 0 _ rfl).1 1 e
  refine ⟨rfl, after, there, parent, fun name => ⟨fun bound => ?_, fun same => ?_⟩⟩
  · exact (outer name).mp (closed (by decide) name bound)
  · exact kept name ((outer name).mpr same)

end MiniScheme
