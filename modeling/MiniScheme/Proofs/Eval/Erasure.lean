import MiniScheme.Eval.Machine
import MiniScheme.Proofs.Datum.Grammar

/-!
# Values, stores and errors without their spans

Forgetting spans keeps everything else: names, parents, the identities of pairs, closures and frames
and so what `eq?` says, and the words of an error, which quote forms and values but no places. What
is asked of a value has the same answer without its spans, and each operation of the store can be
done before or after they are forgotten.
-/
namespace MiniScheme

namespace Sexpr

variable {κ ρ : Type} (t : Sexpr κ ρ)

@[simp] theorem symbol?_erase : t.erase.symbol? = t.symbol? := by
  cases t with
  | atom _ a => cases a <;> rfl
  | _ => rfl

@[simp] theorem isTrue_erase : t.erase.isTrue = t.isTrue := by
  cases t with
  | atom _ a =>
    cases a with
    | boolean b => cases b <;> rfl
    | _ => rfl
  | _ => rfl

@[simp] theorem typeNameBy_erase (leafName : ρ → String) :
    t.erase.typeNameBy leafName = t.typeNameBy leafName := by
  cases t <;> rfl

@[simp] theorem toList?_erase : t.erase.toList? = t.toList?.map (List.map erase) := by
  induction t with
  | pair _ _ car cdr _ ih =>
    simp only [erase, toList?, ih]
    cases cdr.toList? <;> rfl
  | _ => rfl

@[simp] theorem equalBy_erase (sameMark : κ → κ → Bool) (sameLeaf : ρ → ρ → Bool)
    (u : Sexpr κ ρ) :
    t.erase.equalBy sameMark sameLeaf u.erase = t.equalBy sameMark sameLeaf u := by
  induction t generalizing u with
  | pair _ _ car cdr ihCar ihCdr =>
    cases u with
    | pair _ _ car' cdr' => simp only [erase, equalBy, ihCar, ihCdr]
    | _ => rfl
  | _ => cases u <;> rfl

/-- The external form has no places in it, whether a tree is written alone or as the rest of a
list. -/
theorem chars_erase (leafChars : ρ → List Char) :
    t.erase.charsBy leafChars = t.charsBy leafChars ∧
      t.erase.tailCharsBy leafChars = t.tailCharsBy leafChars := by
  induction t with
  | pair _ _ car cdr ihCar ihCdr =>
    simp only [erase, charsBy, tailCharsBy, ihCar.1, ihCdr.2, and_self]
  | _ => exact ⟨rfl, rfl⟩

end Sexpr

namespace Value

variable (v w : Value)

theorem text_erase : text v.erase = v.text := by
  unfold text chars
  rw [(v.chars_erase _).1]

theorem typeName_erase : typeName v.erase = v.typeName := v.typeNameBy_erase _

theorem equal_erase : equal v.erase w.erase = v.equal w := v.equalBy_erase _ _ w

theorem same_erase : same v.erase w.erase = v.same w := by
  cases v with
  | pair _ _ _ _ =>
    cases w with
    | pair _ _ _ _ => rfl
    | _ => rfl
  | _ => cases w <;> rfl

end Value

/-- The names bound, to values without spans. -/
def Bindings.erase (b : Bindings) : Bindings := b.map fun bound => (bound.1, bound.2.erase)

def Frame.erase (frame : Frame) : Frame := { frame with bindings := frame.bindings.erase }

def Closure.erase (c : Closure) : Closure := { c with body := c.body.map Sexpr.erase }

/-- The store with the spans forgotten in every value bound and in every body of a closure. -/
def Store.erase (s : Store) : Store :=
  { s with frames := s.frames.map Frame.erase, closures := s.closures.map Closure.erase }

/-- The same error, pointing nowhere. -/
def EvalError.erase : EvalError → EvalError
  | .unbound name _ => .unbound name default
  | .arity expected got _ => .arity expected got default
  | .notProcedure v _ => .notProcedure v.erase default
  | .argument fault _ => .argument fault default
  | .notSymbol v => .notSymbol v.erase
  | .malformed fault form => .malformed fault form.erase
  | .emptyApplication _ => .emptyApplication default
  | .notCode v => .notCode v.erase

def Stop.erase : Stop → Stop
  | .failed e => .failed e.erase
  | .exhausted => .exhausted

theorem EvalError.notCodeMessage_erase (v : Value) : notCodeMessage v.erase = notCodeMessage v := by
  unfold notCodeMessage
  rw [Value.typeName_erase]

/-- What is said of an error does not depend on where it is. -/
theorem EvalError.message_erase (e : EvalError) : e.erase.message = e.message := by
  cases e with
  | notProcedure | notSymbol | malformed =>
    dsimp only [erase, message]
    rw [Value.text_erase]
  | notCode v => exact congrArg ("Internal Error: " ++ ·) (notCodeMessage_erase v)
  | _ => rfl

namespace Bindings

theorem get?_erase (b : Bindings) (name : String) :
    b.erase.get? name = (b.get? name).map Sexpr.erase := by
  induction b with
  | nil => rfl
  | cons bound rest ih =>
    obtain ⟨n, v⟩ := bound
    change (if n = name then some v.erase else Bindings.get? (Bindings.erase rest) name) = _
    rw [ih, get?]
    split <;> rfl

theorem erase_put (b : Bindings) (name : String) (v : Value) :
    (b.put name v).erase = b.erase.put name v.erase := by
  induction b with
  | nil => rfl
  | cons bound rest ih =>
    obtain ⟨n, w⟩ := bound
    change _ = if n = name then (n, v.erase) :: Bindings.erase rest
      else (n, w.erase) :: (Bindings.erase rest).put name v.erase
    rw [← ih, put]
    split <;> rfl

theorem erase_foldl_put (bounds : List (String × Value)) (b : Bindings) :
    (bounds.foldl (fun b bound => b.put bound.1 bound.2) b).erase =
      (bounds.map fun bound => (bound.1, bound.2.erase)).foldl
        (fun b bound => b.put bound.1 bound.2) b.erase := by
  induction bounds generalizing b with
  | nil => rfl
  | cons bound bounds ih =>
    rw [List.map_cons, List.foldl_cons, List.foldl_cons, ih, erase_put]

end Bindings

namespace Store

variable (s : Store)

theorem frames_erase (g : FrameId) : s.erase.frames[g]? = s.frames[g]?.map Frame.erase :=
  Array.getElem?_map

theorem closures_erase (id : ClosureId) :
    s.erase.closures[id]? = s.closures[id]?.map Closure.erase :=
  Array.getElem?_map

/-- A walk outward sees names and parents only, so it ends in the same frame. -/
theorem find?_erase (f : FrameId) (name : String) :
    s.erase.find? f name = (s.find? f name).map fun found => (found.1, found.2.erase) := by
  fun_induction find? s f name with
  | case1 f absent => simp [find?, frames_erase, absent]
  | case2 f frame present v bound =>
    simp [find?, frames_erase, present, Frame.erase, Bindings.get?_erase, bound]
  | case3 f frame present absent p parent older ih =>
    rw [← ih, find?]
    simp [frames_erase, present, Frame.erase, Bindings.get?_erase, absent, parent, older]
  | case4 f frame present absent p parent younger =>
    simp [find?, frames_erase, present, Frame.erase, Bindings.get?_erase, absent, parent, younger]
  | case5 f frame present absent orphan =>
    simp [find?, frames_erase, present, Frame.erase, Bindings.get?_erase, absent, orphan]

theorem get?_erase (f : FrameId) (name : String) :
    s.erase.get? f name = (s.get? f name).map Sexpr.erase := by
  rw [get?, find?_erase, get?, Option.map_map, Option.map_map]
  rfl

theorem erase_define (f : FrameId) (name : String) (v : Value) :
    (s.define f name v).erase = s.erase.define f name v.erase := by
  have frames : (s.define f name v).erase.frames = (s.erase.define f name v.erase).frames := by
    apply Array.ext_getElem?
    intro g
    rw [frames_erase, frames_define, frames_define, frames_erase]
    split
    · cases s.frames[g]? with
      | none => rfl
      | some frame => simp [Frame.erase, Bindings.erase_put]
    · rfl
  simp only [erase, define] at frames ⊢
  rw [frames]

theorem addList_erase (tail : Value) (vs : List Value) :
    s.erase.addList tail.erase (vs.map Sexpr.erase) =
      ((s.addList tail vs).1.erase, (s.addList tail vs).2.erase) := by
  induction vs with
  | nil => rfl
  | cons v vs ih =>
    rw [List.map_cons, addList, ih]
    simp only [Sexpr.span_erase]
    rfl

theorem addFrame_erase (frame : Frame) :
    s.erase.addFrame frame.erase = ((s.addFrame frame).1, (s.addFrame frame).2.erase) := by
  simp [addFrame, erase]

theorem addClosure_erase (c : Closure) :
    s.erase.addClosure c.erase = ((s.addClosure c).1, (s.addClosure c).2.erase) := by
  simp [addClosure, erase]

theorem bindFormals_erase (parent : FrameId) (formals : List String) (variadic : Bool)
    (arguments : List Value) (span : Span) :
    s.erase.bindFormals parent formals variadic (arguments.map Sexpr.erase) default =
      ((s.bindFormals parent formals variadic arguments span).1,
        (s.bindFormals parent formals variadic arguments span).2.erase) := by
  let required := (Arity.ofFormals formals variadic).required
  let fixed : Bindings :=
    ((formals.take required).zip arguments).foldl (fun b bound => b.put bound.1 bound.2) []
  have fixedErased : ((formals.take required).zip (arguments.map Sexpr.erase)).foldl
      (fun (b : Bindings) bound => b.put bound.1 bound.2) [] = fixed.erase := by
    rw [List.zip_map_right]
    exact (Bindings.erase_foldl_put _ []).symm
  have collected : s.erase.addList (.nil default) ((arguments.drop required).map Sexpr.erase) = _ :=
    s.addList_erase (.nil span) (arguments.drop required)
  unfold bindFormals
  dsimp only
  rw [fixedErased, ← List.map_drop, collected]
  split
  · rw [← Bindings.erase_put]
    exact addFrame_erase _ ⟨some parent, _⟩
  · exact s.addFrame_erase ⟨some parent, fixed⟩

end Store

end MiniScheme
