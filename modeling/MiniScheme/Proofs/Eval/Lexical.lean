import MiniScheme.Proofs.Eval.Correspondence
import MiniScheme.Proofs.Eval.Forest

/-!
# What an assignment or a definition changes, seen from every frame

Frames share their parents, so one binding is seen from many frames, and hidden from others by a
nearer binding of the same name. To assign a name changes the nearest binding on the way outward
from a frame, and to define it binds it in the frame itself; here it is said what is found after,
from whatever frame and under whatever name it is asked for.

Both come down to `Store.define`: the ways outward stay (`Walk.define`), and along a way the new
binding is found just if it comes before every other of its name (`findSome?_rebound`).
-/
namespace MiniScheme.Store

/-- The way comes to `h` before any frame that binds the name. -/
def ClearTo (s : Store) (way : List FrameId) (name : String) (h : FrameId) : Prop :=
  ∃ near far, way = near ++ h :: far ∧ ∀ k ∈ near, name ∉ (s.bindingsAt k).names

/-- The first frame of a way that binds the name. -/
def nearest? (s : Store) (way : List FrameId) (name : String) : Option FrameId :=
  way.find? fun k => name ∈ (s.bindingsAt k).names

variable {s : Store} {f g h : FrameId} {way : List FrameId} {v : Value}

section Ways

/-- The frame that is found binds the name, and nothing on the way to it does. -/
theorem nearest?_eq_some_iff {name : String} :
    s.nearest? way name = some h ↔
      name ∈ (s.bindingsAt h).names ∧ s.ClearTo way name h := by
  simp [nearest?, ClearTo, List.find?_eq_some_iff_append]

/-- What a search finds it finds in the nearest frame. -/
theorem map_find? (ordered : s.Ordered) (walk : s.Walk f way) (name : String) :
    (s.find? f name).map (·.1) = s.nearest? way name := by
  rw [find?_eq_findSome? ordered walk, nearest?]
  clear walk
  induction way with
  | nil => rfl
  | cons k way ih =>
    have here := (s.bindingsAt k).mem_names_iff name
    rw [List.findSome?_cons, List.find?_cons]
    cases bound : (s.bindingsAt k).get? name with
    | none => simpa [here, bound] using ih
    | some v => simp [here, bound]

theorem bindingsAt_define (known : h < s.frames.size) (name : String) (v : Value) (k : FrameId) :
    (s.define h name v).bindingsAt k =
      if h = k then (s.bindingsAt k).put name v else s.bindingsAt k := by
  unfold bindingsAt
  rw [frames_define]
  by_cases same : h = k
  · subst same
    simp [Array.getElem?_eq_getElem known]
  · simp [same]

/-- No binding changes a parent. -/
theorem Walk.define (walk : s.Walk f way) (h : FrameId) (name : String) (v : Value) :
    (s.define h name v).Walk f way := by
  have kept {k : FrameId} {frame : Frame} (there : s.frames[k]? = some frame) :
      ∃ frame', (s.define h name v).frames[k]? = some frame' ∧ frame'.parent = frame.parent := by
    rw [frames_define, there]
    split
    · exact ⟨_, rfl, rfl⟩
    · exact ⟨frame, rfl, rfl⟩
  induction walk with
  | outermost there orphan =>
    obtain ⟨frame', there', same⟩ := kept there
    exact .outermost there' (same.trans orphan)
  | outward there inside _ ih =>
    obtain ⟨frame', there', same⟩ := kept there
    exact .outward there' (same.trans inside) ih

theorem Ordered.define (ordered : s.Ordered) (h : FrameId) (name : String) (v : Value) :
    (s.define h name v).Ordered := by
  intro k frame p there inside
  rw [frames_define] at there
  split at there
  · obtain ⟨before, was, rfl⟩ := Option.map_eq_some_iff.mp there
    exact ordered k before p was inside
  · exact ordered k frame p there inside

/-- There is one way outward from a frame. -/
theorem Walk.unique {way' : List FrameId} (walk : s.Walk f way) (walk' : s.Walk f way') :
    way = way' := by
  induction walk generalizing way' with
  | outermost there orphan =>
    cases walk' with
    | outermost => rfl
    | outward there' inside =>
      cases there.symm.trans there'
      cases orphan.symm.trans inside
  | outward there inside _ ih =>
    cases walk' with
    | outermost there' orphan =>
      cases there.symm.trans there'
      cases inside.symm.trans orphan
    | outward there' inside' rest =>
      cases there.symm.trans there'
      cases inside.symm.trans inside'
      rw [ih rest]

theorem Walk.lt_size (walk : s.Walk f way) : ∀ k ∈ way, k < s.frames.size := by
  induction walk with
  | outermost there _ => simpa using (Array.getElem?_eq_some_iff.mp there).1
  | outward there _ _ ih =>
    exact List.forall_mem_cons.mpr ⟨(Array.getElem?_eq_some_iff.mp there).1, ih⟩

end Ways

section Rebinding

/-- A search along a way, if the frame `h` is made to answer `v`. -/
theorem findSome?_rebound (s : Store) (way : List FrameId) (name : String) (h : FrameId)
    (v : Value) :
    (s.ClearTo way name h →
      (way.findSome? fun k => if h = k then some v else (s.bindingsAt k).get? name) = some v) ∧
    (¬ s.ClearTo way name h →
      (way.findSome? fun k => if h = k then some v else (s.bindingsAt k).get? name) =
        way.findSome? fun k => (s.bindingsAt k).get? name) := by
  induction way with
  | nil => exact ⟨fun ⟨near, far, split, _⟩ => by simp at split, fun _ => rfl⟩
  | cons k way ih =>
    have here := (s.bindingsAt k).mem_names_iff name
    rw [List.findSome?_cons, List.findSome?_cons]
    by_cases same : h = k
    · subst same
      have clear : s.ClearTo (h :: way) name h := ⟨[], way, rfl, by simp⟩
      simp [clear]
    · rw [if_neg same]
      cases bound : (s.bindingsAt k).get? name with
      | some w =>
        -- the way is barred here, so what comes after is not looked at
        refine ⟨fun ⟨near, far, split, unbound⟩ => ?_, fun _ => rfl⟩
        cases near with
        | nil => exact absurd (List.cons.inj split).1.symm same
        | cons k' near =>
          obtain ⟨rfl, -⟩ := List.cons.inj split
          exact absurd (here.mpr ⟨w, bound⟩) (unbound k List.mem_cons_self)
      | none =>
        have step : s.ClearTo (k :: way) name h ↔ s.ClearTo way name h := by
          constructor
          · rintro ⟨near, far, split, unbound⟩
            cases near with
            | nil => exact absurd (List.cons.inj split).1.symm same
            | cons k' near =>
              obtain ⟨rfl, rest⟩ := List.cons.inj split
              exact ⟨near, far, rest, fun i member => unbound i (List.mem_cons_of_mem _ member)⟩
          · rintro ⟨near, far, rfl, unbound⟩
            refine ⟨k :: near, far, rfl, List.forall_mem_cons.mpr ⟨?_, unbound⟩⟩
            simp [here, bound]
        simpa only [step] using ih

/-- What is found after a name has been bound in a frame: the new value, if the search is for that
name and comes to the frame before it has found another, and else what was found before. -/
theorem get?_define (ordered : s.Ordered) (walk : s.Walk g way) (known : h < s.frames.size)
    (name other : String) (v : Value) :
    (other = name ∧ s.ClearTo way name h → (s.define h name v).get? g other = some v) ∧
    (¬ (other = name ∧ s.ClearTo way name h) →
      (s.define h name v).get? g other = s.get? g other) := by
  have after : (s.define h name v).get? g other = way.findSome? fun k =>
      if h = k ∧ other = name then some v else (s.bindingsAt k).get? other := by
    rw [get?_eq_findSome? (ordered.define h name v) (walk.define h name v)]
    congr 1
    funext k
    rw [bindingsAt_define known]
    by_cases same : h = k
    · simp [same, Bindings.get?_put, eq_comm]
    · simp [same]
  rw [after, get?_eq_findSome? ordered walk]
  by_cases same : other = name
  · subst same
    simpa using s.findSome?_rebound way other h v
  · simp [same]

/-- To bind a name where it is bound gives no frame a name. -/
theorem names_define (known : h < s.frames.size) {name : String}
    (bound : name ∈ (s.bindingsAt h).names) (v : Value) (k : FrameId) :
    ((s.define h name v).bindingsAt k).names = (s.bindingsAt k).names := by
  rw [bindingsAt_define known]
  split
  · next same =>
    subst same
    rw [Bindings.names_put, if_pos bound]
  · rfl

end Rebinding

/-- In a store where no frame is inside itself, names are assigned and defined in a frame `f`, and
looked up from a frame `g`; the ways outward from both are what the lookups follow. To assign `x`
fails just if no frame on the way from `f` binds it, and then nothing is changed; otherwise `y` is
the new value for `g` if it is `x` and the nearest frame that binds it is the same for both, and
else what it was, and no frame has other names than before. To define `x` never fails, and after it
`y` is the new value for `g` if it is `x` and the way from `g` comes to `f` before any frame that
binds it, and else what it was. -/
theorem assigned_and_defined_seen {s : Store} (ordered : s.Ordered) {f g : FrameId}
    (inF : f < s.frames.size) (inG : g < s.frames.size) (x y : String) (v : Value) (span : Span) :
    ∃ fromF fromG, s.Walk f fromF ∧ s.Walk g fromG ∧
      ((Machine.assign f x v span).outcome s = .error (.failed (.unbound x span)) ↔
        ∀ h ∈ fromF, x ∉ (s.bindingsAt h).names) ∧
      ((∀ h ∈ fromF, x ∉ (s.bindingsAt h).names) → (Machine.assign f x v span).after s = s) ∧
      ((∃ h ∈ fromF, x ∈ (s.bindingsAt h).names) →
        let assigned := (Machine.assign f x v span).after s
        (Machine.assign f x v span).outcome s = .ok () ∧
        (y = x ∧ s.nearest? fromG x = s.nearest? fromF x → assigned.get? g y = some v) ∧
        (¬ (y = x ∧ s.nearest? fromG x = s.nearest? fromF x) →
          assigned.get? g y = s.get? g y) ∧
        ∀ k, (assigned.bindingsAt k).names = (s.bindingsAt k).names) ∧
      (Machine.define f x v).outcome s = .ok () ∧
      (y = x ∧ s.ClearTo fromG x f → ((Machine.define f x v).after s).get? g y = some v) ∧
      (¬ (y = x ∧ s.ClearTo fromG x f) →
        ((Machine.define f x v).after s).get? g y = s.get? g y) := by
  obtain ⟨fromF, walkF⟩ := exists_walk ordered inF
  obtain ⟨fromG, walkG⟩ := exists_walk ordered inG
  have found := map_find? ordered walkF x
  have searched : s.nearest? fromF x = none ↔ ∀ h ∈ fromF, x ∉ (s.bindingsAt h).names := by
    simp [nearest?]
  refine ⟨fromF, fromG, walkF, walkG, ?_, ?_, ?_, rfl, get?_define ordered walkG inF x y v⟩
  · rw [Machine.outcome_assign, ← searched, ← found]
    cases s.find? f x <;> simp
  · intro unbound
    rw [searched.mpr unbound, Option.map_eq_none_iff] at found
    rw [Machine.after_assign, found]
  · rintro ⟨h₀, member, bound₀⟩
    have some : s.nearest? fromF x ≠ none := fun none => searched.mp none h₀ member bound₀
    obtain ⟨h, nearest⟩ := Option.ne_none_iff_exists'.mp some
    obtain ⟨bound, near, far, split, -⟩ := nearest?_eq_some_iff.mp nearest
    have known : h < s.frames.size := walkF.lt_size h (by simp [split])
    obtain ⟨target, place, rfl⟩ := Option.map_eq_some_iff.mp (found.trans nearest)
    have seen : s.nearest? fromG x = s.nearest? fromF x ↔ s.ClearTo fromG x target.1 := by
      rw [nearest, nearest?_eq_some_iff]
      exact and_iff_right bound
    have changed := get?_define ordered walkG known x y v
    rw [Machine.outcome_assign, Machine.after_assign, place]
    dsimp only
    rw [seen]
    exact ⟨rfl, changed.1, changed.2, names_define known bound v⟩

/-- Two scopes share a parent that binds `x`, and one of them binds it again. An assignment from
inside that one is seen there, and not from the other; a definition in the parent is seen from the
other, and not there. -/
theorem assigned_and_defined_seen_from_branches :
    let number (n : Float) : Value := .number default n
    let s : Store := ⟨#[⟨none, [("x", number 0)]⟩, ⟨some 0, [("x", number 1)]⟩, ⟨some 0, []⟩,
      ⟨some 1, []⟩], #[], 0⟩
    let assigned := (Machine.assign 3 "x" (number 7) default).after s
    let defined := (Machine.define 0 "x" (number 7)).after s
    s.Ordered ∧ s.Walk 3 [3, 1, 0] ∧ s.Walk 1 [1, 0] ∧ s.Walk 2 [2, 0] ∧
    assigned.get? 1 "x" = some (number 7) ∧ assigned.get? 2 "x" = s.get? 2 "x" ∧
    defined.get? 2 "x" = some (number 7) ∧ defined.get? 1 "x" = s.get? 1 "x" := by
  intro number s assigned defined
  have ordered : s.Ordered := by
    intro f frame p there inside
    obtain ⟨known, rfl⟩ := Array.getElem?_eq_some_iff.mp there
    have few : f < 4 := known
    interval_cases f
    · cases inside
    · cases inside; decide
    · cases inside; decide
    · cases inside; decide
  have from0 : s.Walk 0 [0] := .outermost rfl rfl
  have from1 : s.Walk 1 [1, 0] := .outward rfl rfl from0
  have from2 : s.Walk 2 [2, 0] := .outward rfl rfl from0
  have from3 : s.Walk 3 [3, 1, 0] := .outward rfl rfl from1
  refine ⟨ordered, from3, from1, from2, ?_, ?_, ?_, ?_⟩
  · obtain ⟨fromF, fromG, walkF, walkG, -, -, set, -⟩ := assigned_and_defined_seen ordered
      (f := 3) (g := 1) (by decide) (by decide) "x" "x" (number 7) default
    obtain rfl := walkF.unique from3
    obtain rfl := walkG.unique from1
    exact (set ⟨1, by decide, by decide +kernel⟩).2.1 ⟨rfl, by decide +kernel⟩
  · obtain ⟨fromF, fromG, walkF, walkG, -, -, set, -⟩ := assigned_and_defined_seen ordered
      (f := 3) (g := 2) (by decide) (by decide) "x" "x" (number 7) default
    obtain rfl := walkF.unique from3
    obtain rfl := walkG.unique from2
    exact (set ⟨1, by decide, by decide +kernel⟩).2.2.1 (by decide +kernel)
  · obtain ⟨_, fromG, -, walkG, -, -, -, -, seen, -⟩ := assigned_and_defined_seen ordered
      (f := 0) (g := 2) (by decide) (by decide) "x" "x" (number 7) default
    obtain rfl := walkG.unique from2
    have clear : s.ClearTo [2, 0] "x" 0 := ⟨[2], [], rfl, by decide +kernel⟩
    exact seen ⟨rfl, clear⟩
  · obtain ⟨_, fromG, -, walkG, -, -, -, -, -, hidden⟩ := assigned_and_defined_seen ordered
      (f := 0) (g := 1) (by decide) (by decide) "x" "x" (number 7) default
    obtain rfl := walkG.unique from1
    have nearer : "x" ∈ (s.bindingsAt 1).names := by decide +kernel
    refine hidden fun ⟨_, near, far, split, unbound⟩ => ?_
    cases near with
    | nil => cases split
    | cons k near =>
      obtain ⟨rfl, -⟩ := List.cons.inj split
      exact unbound 1 List.mem_cons_self nearer

end MiniScheme.Store
