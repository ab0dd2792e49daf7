import Mathlib.Data.List.Basic
import MiniScheme.Proofs.Eval.Discipline

/-!
# The frame of a call

A call makes one frame. Formals take an argument each, in order, but for the last one of a variadic
procedure, which takes the list of what is left. What is said of the formals here is said without
counting what is required: the formals that take one argument each are all of them, or all but the
last (`fixedFormals`).
-/
namespace MiniScheme

/-- The formals that take one argument each. -/
def fixedFormals (formals : List String) (variadic : Bool) : List String :=
  if variadic then formals.dropLast else formals

/-- The formal that takes all further arguments. -/
def restFormal? (formals : List String) (variadic : Bool) : Option String :=
  if variadic then formals.getLast? else none

/-- So many arguments can be bound: one for each formal, or, if the last formal takes a list, at
most one less. -/
def Fits (formals : List String) (variadic : Bool) (count : Nat) : Prop :=
  if variadic then formals.length ≤ count + 1 else count = formals.length

instance (formals : List String) (variadic : Bool) (count : Nat) :
    Decidable (Fits formals variadic count) :=
  inferInstanceAs <| Decidable <|
    if variadic then formals.length ≤ count + 1 else count = formals.length

theorem fits_iff (formals : List String) (variadic : Bool) (count : Nat) :
    Fits formals variadic count ↔
      (Arity.ofFormals formals variadic).accepts count = true := by
  cases variadic with
  | false => rw [Arity.ofFormals, if_neg Bool.false_ne_true, Arity.accepts_exactly]; rfl
  | true =>
    rw [Arity.ofFormals, if_pos rfl, Arity.accepts_atLeast, Nat.sub_le_iff_le_add]
    rfl

theorem length_fixedFormals_le {formals : List String} {variadic : Bool} {count : Nat}
    (fits : Fits formals variadic count) : (fixedFormals formals variadic).length ≤ count := by
  cases variadic with
  | false => exact Nat.le_of_eq (Eq.symm fits)
  | true =>
    have few : formals.length ≤ count + 1 := fits
    have one_less : formals.dropLast.length = formals.length - 1 := List.length_dropLast
    change formals.dropLast.length ≤ count
    omega

namespace Bindings

variable {b : Bindings} {bounds : List (String × Value)}

theorem get?_foldl_put_of_notMem {name : String} (absent : name ∉ bounds.map (·.1)) :
    (bounds.foldl (fun b bound => b.put bound.1 bound.2) b).get? name = b.get? name := by
  induction bounds generalizing b with
  | nil => rfl
  | cons bound bounds ih =>
    rw [List.map_cons, List.mem_cons, not_or] at absent
    rw [List.foldl_cons, ih absent.2, get?_put, if_neg (Ne.symm absent.1)]

/-- Names bound once each keep what they are bound to. -/
theorem get?_foldl_put_of_mem (distinct : (bounds.map (·.1)).Nodup) {bound : String × Value}
    (member : bound ∈ bounds) :
    (bounds.foldl (fun b bound => b.put bound.1 bound.2) b).get? bound.1 = some bound.2 := by
  induction bounds generalizing b with
  | nil => cases member
  | cons first bounds ih =>
    rw [List.map_cons, List.nodup_cons] at distinct
    rw [List.foldl_cons]
    obtain rfl | later := List.mem_cons.mp member
    · rw [get?_foldl_put_of_notMem distinct.1, get?_put, if_pos rfl]
    · exact ih distinct.2 later

end Bindings

namespace Store

/-- The frame `inner` is new in the store `s'`, and binds the formals to the arguments as they come.
Nothing else is different from the store `s`. -/
structure Enters (s s' : Store) (parent inner : FrameId) (formals : List String) (variadic : Bool)
    (arguments : List Value) (span : Span) : Prop where
  inside : (s'.frames[inner]?).map Frame.parent = some (some parent)
  new : s.frames[inner]? = none
  kept : ∀ g, g ≠ inner → s'.frames[g]? = s.frames[g]?
  closures : s'.closures = s.closures
  fixed : ∀ (i : Nat) name, (fixedFormals formals variadic)[i]? = some name →
    ∃ v : Value, arguments[i]? = some v ∧ s'.get? inner name = some v
  rest : ∀ name, restFormal? formals variadic = some name →
    ∃ list : Value, s'.get? inner name = some list ∧
      list.toList? = some (arguments.drop (fixedFormals formals variadic).length) ∧
      (arguments.length = (fixedFormals formals variadic).length → list = .nil span)
  outer : ∀ name, name ∉ formals → s'.get? inner name = s.get? parent name

section Binding

variable {s : Store} {parent : FrameId} {formals : List String} {variadic : Bool}
  {arguments : List Value} {span : Span}

/-- What a lookup finds in a frame that has just been made, and what it finds through it. -/
theorem get?_push (inside : parent < s.frames.size) (bindings : Bindings) (next : CellId)
    (name : String) :
    ({ s with frames := s.frames.push ⟨some parent, bindings⟩, nextCell := next } : Store).get?
        s.frames.size name =
      (bindings.get? name).or (s.get? parent name) := by
  let s' : Store := { s with frames := s.frames.push ⟨some parent, bindings⟩, nextCell := next }
  have here : s'.frames[s.frames.size]? = some ⟨some parent, bindings⟩ := Array.getElem?_push_size
  have behind : s'.find? parent name = s.find? parent name := by
    refine (find?_congr (F := (· < s.frames.size)) ?_ (fun f known => ?_) inside name).symm
    · exact fun f _ p known _ _ older => Nat.lt_trans older known
    · exact (Array.getElem?_push_lt known).symm ▸ Array.getElem?_eq_getElem known
  change (s'.find? s.frames.size name).map (·.2) = _
  rw [find?, here]
  cases bound : bindings.get? name with
  | some v => simp [bound]
  | none => simp [bound, inside, behind, get?]

/-- The frame that is made: what it binds is bound before its last formal, or is the list for it. -/
theorem enters_push {bindings : Bindings} {next : CellId}
    (inside : parent < s.frames.size)
    (fixed : ∀ (i : Nat) name, (fixedFormals formals variadic)[i]? = some name →
      ∃ v : Value, arguments[i]? = some v ∧ bindings.get? name = some v)
    (rest : ∀ name, restFormal? formals variadic = some name →
      ∃ list : Value, bindings.get? name = some list ∧
        list.toList? = some (arguments.drop (fixedFormals formals variadic).length) ∧
        (arguments.length = (fixedFormals formals variadic).length → list = .nil span))
    (outer : ∀ name, name ∉ formals → bindings.get? name = none) :
    s.Enters { s with frames := s.frames.push ⟨some parent, bindings⟩, nextCell := next } parent
      s.frames.size formals variadic arguments span where
  inside := by simp
  new := Array.getElem?_eq_none (Nat.le_refl _)
  kept g other := by
    rw [Array.getElem?_push, if_neg other]
  closures := rfl
  fixed i name named := by
    obtain ⟨v, given, bound⟩ := fixed i name named
    exact ⟨v, given, by rw [get?_push inside, bound, Option.some_or]⟩
  rest name named := by
    obtain ⟨list, bound, listed, empty⟩ := rest name named
    exact ⟨list, by rw [get?_push inside, bound, Option.some_or], listed, empty⟩
  outer name absent := by rw [get?_push inside, outer name absent, Option.none_or]

/-- The last formal of a variadic procedure comes after those that take one argument. -/
theorem formals_eq (formals : List String) (variadic : Bool) :
    formals = fixedFormals formals variadic ++ (restFormal? formals variadic).toList := by
  cases variadic with
  | false => exact (List.append_nil _).symm
  | true =>
    change formals = formals.dropLast ++ formals.getLast?.toList
    cases last : formals.getLast? with
    | none => simp [List.getLast?_eq_none_iff.mp last]
    | some rest => exact (List.dropLast_append_getLast? rest last).symm

/-- What the formals that take one argument each are bound to. -/
def fixedBindings (formals : List String) (variadic : Bool) (arguments : List Value) : Bindings :=
  ((fixedFormals formals variadic).zip arguments).foldl (fun b bound => b.put bound.1 bound.2) []

theorem bindFormals_eq_addFrame (s : Store) (parent : FrameId) (formals : List String)
    (variadic : Bool) (arguments : List Value) (span : Span) :
    s.bindFormals parent formals variadic arguments span =
      match restFormal? formals variadic with
      | some rest =>
        let listed :=
          s.addList (.nil span) (arguments.drop (fixedFormals formals variadic).length)
        listed.2.addFrame
          ⟨some parent, (fixedBindings formals variadic arguments).put rest listed.1⟩
      | none => s.addFrame ⟨some parent, fixedBindings formals variadic arguments⟩ := by
  cases variadic with
  | false =>
    simp [bindFormals, fixedBindings, fixedFormals, restFormal?, Arity.ofFormals, Arity.exactly]
  | true =>
    simp only [bindFormals, fixedBindings, fixedFormals, restFormal?, Arity.ofFormals,
      Arity.atLeast, if_true, List.dropLast_eq_take, List.length_take]
    cases formals.getLast? with
    | none => rfl
    | some rest => simp

/-- With distinct formals, each of those that take one argument is bound to the one in its place. -/
theorem get?_fixedBindings (distinct : formals.Nodup)
    (enough : (fixedFormals formals variadic).length ≤ arguments.length) {i : Nat} {name : String}
    (named : (fixedFormals formals variadic)[i]? = some name) :
    ∃ v : Value, arguments[i]? = some v ∧
      (fixedBindings formals variadic arguments).get? name = some v := by
  have names : ((fixedFormals formals variadic).zip arguments).map (·.1) =
      fixedFormals formals variadic := List.map_fst_zip enough
  rw [formals_eq formals variadic] at distinct
  obtain ⟨short, -⟩ := List.getElem?_eq_some_iff.mp named
  have given : arguments[i]? = some arguments[i] := List.getElem?_eq_getElem (by omega)
  have member : (name, arguments[i]) ∈ (fixedFormals formals variadic).zip arguments := by
    apply List.mem_of_getElem? (i := i)
    rw [List.getElem?_zip_eq_some]
    exact ⟨named, given⟩
  refine ⟨_, given, Bindings.get?_foldl_put_of_mem ?_ member⟩
  rw [names]
  exact (List.nodup_append.mp distinct).1

theorem get?_fixedBindings_of_notMem {name : String}
    (absent : name ∉ fixedFormals formals variadic) :
    (fixedBindings formals variadic arguments).get? name = none := by
  refine Bindings.get?_foldl_put_of_notMem fun member => absent ?_
  obtain ⟨bound, zipped, rfl⟩ := List.mem_map.mp member
  exact (List.of_mem_zip zipped).1

theorem enters_bindFormals (inside : parent < s.frames.size) (distinct : formals.Nodup)
    (enough : (fixedFormals formals variadic).length ≤ arguments.length) :
    let made := s.bindFormals parent formals variadic arguments span
    s.Enters made.2 parent made.1 formals variadic arguments span := by
  have whole := formals_eq formals variadic
  have apart := distinct
  rw [whole] at apart
  intro made
  simp only [made, bindFormals_eq_addFrame]
  cases named : restFormal? formals variadic with
  | none =>
    refine enters_push inside (fun i name => get?_fixedBindings distinct enough) (by simp [named])
      fun name absent => ?_
    rw [whole, named] at absent
    exact get?_fixedBindings_of_notMem (by simpa using absent)
  | some rest =>
    rw [named, Option.toList_some, List.nodup_append] at apart
    have last : rest ∉ fixedFormals formals variadic :=
      fun member => apart.2.2 rest member rest List.mem_cons_self rfl
    rw [addList_eq]
    refine enters_push inside ?_ ?_ ?_
    · intro i name fixed
      obtain ⟨v, given, bound⟩ := get?_fixedBindings distinct enough fixed
      have other : rest ≠ name := by
        rintro rfl
        exact last (List.mem_of_getElem? fixed)
      exact ⟨v, given, by rw [Bindings.get?_put, if_neg other, bound]⟩
    · intro name same
      rw [named, Option.some.injEq] at same
      subst same
      refine ⟨_, by rw [Bindings.get?_put, if_pos rfl], toList?_addList _ span _, fun none => ?_⟩
      rw [← none, List.drop_length]
      rfl
    · intro name absent
      rw [whole, named, Option.toList_some, List.mem_append, List.mem_singleton, not_or] at absent
      rw [Bindings.get?_put, if_neg (Ne.symm absent.2), get?_fixedBindings_of_notMem absent.1]

end Binding

end Store

/-- A frame is made for a call just if its arguments fit the formals. If they do not, nothing is
made and the error names the arity, the number of arguments and the call; if they do, the new frame
binds them and all else stays. -/
theorem extend_binds_arguments {s : Store} {parent : FrameId} (inside : parent < s.frames.size)
    {formals : List String} (distinct : formals.Nodup) (variadic : Bool) (arguments : List Value)
    (span : Span) :
    let extended := Machine.extend parent formals variadic arguments span
    ((∃ inner, extended.outcome s = .ok inner) ↔ Fits formals variadic arguments.length) ∧
    (¬ Fits formals variadic arguments.length →
      extended.outcome s = .error (.failed (.arity (.ofFormals formals variadic) arguments.length
        span)) ∧ extended.after s = s) ∧
    ∀ inner, extended.outcome s = .ok inner →
      s.Enters (extended.after s) parent inner formals variadic arguments span := by
  intro extended
  have counted := fits_iff formals variadic arguments.length
  by_cases fits : Fits formals variadic arguments.length
  · have made : extended =
        Machine.make fun s => s.bindFormals parent formals variadic arguments span :=
      if_pos (counted.mp fits)
    have enough := length_fixedFormals_le fits
    rw [made]
    refine ⟨⟨fun _ => fits, fun _ => ⟨_, rfl⟩⟩, fun refused => absurd fits refused, ?_⟩
    rintro inner ⟨⟩
    exact Store.enters_bindFormals inside distinct enough
  · have refused : extended = Machine.fail (.arity (.ofFormals formals variadic) arguments.length
        span) := if_neg (mt counted.mpr fits)
    rw [refused]
    refine ⟨⟨?_, fun fits' => absurd fits' fits⟩, fun _ => ⟨rfl, rfl⟩, ?_⟩
    · rintro ⟨inner, ⟨⟩⟩
    · rintro inner ⟨⟩

/-- Two formals, the second of which takes the list of all arguments but the first. What they do not
name is seen through the new frame. -/
theorem extend_binds_arguments_with_rest :
    let number (n : Float) : Value := .number default n
    let s : Store := ⟨#[⟨none, [("x", number 7), ("y", number 8)]⟩], #[], 0⟩
    let extended := Machine.extend 0 ["x", "more"] true [number 1, number 2, number 3] default
    ∃ inner, extended.outcome s = .ok inner ∧
      (extended.after s).get? inner "x" = some (number 1) ∧
      (∃ list : Value, (extended.after s).get? inner "more" = some list ∧
        list.toList? = some [number 2, number 3]) ∧
      (extended.after s).get? inner "y" = s.get? 0 "y" := by
  intro number s extended
  obtain ⟨accepted, -, entered⟩ := @extend_binds_arguments s 0 (by decide) ["x", "more"]
    (by decide) true [number 1, number 2, number 3] default
  obtain ⟨inner, outcome⟩ := accepted.mpr (by decide)
  have enters := entered inner outcome
  obtain ⟨v, first, bound⟩ := enters.fixed 0 "x" rfl
  obtain ⟨list, collected, listed, -⟩ := enters.rest "more" rfl
  cases first
  exact ⟨inner, outcome, bound, ⟨list, collected, listed⟩, enters.outer "y" (by decide)⟩

end MiniScheme
