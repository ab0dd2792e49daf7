import MiniScheme.Text.BreakClass

/-!
# Clusters

A text is cut into clusters, the stretches that a reader takes for one character: a letter with its
marks, a pair of regional indicators, a syllable, a joined pictograph, or a return with its newline.
The boundaries are those of Unicode's extended grapheme clusters. Whether there is one before a
character depends on its class and on the classes of the characters before it, which are listed here
with the nearest first.
-/
namespace MiniScheme.Text

/-- Whether a pictograph is nearest, the extenders after it passed over. -/
def endsInPictograph : List BreakClass → Bool
  | [] => false
  | .pictograph :: _ => true
  | k :: before => k.isExtender && endsInPictograph before

/-- Whether a consonant is nearest, the extenders and joiners after it passed over, and a linker has
been among these; `linked` says whether one was met already. -/
def endsInLinked (linked : Bool) : List BreakClass → Bool
  | .consonant :: _ => linked
  | .linker :: before => endsInLinked true before
  | .extender :: before => endsInLinked linked before
  | .joiner :: before => endsInLinked linked before
  | _ => false

/-- Whether an odd number of regional indicators is nearest, so that the last of them lacks its
second. -/
def endsInOpenRegional : List BreakClass → Bool
  | .regional :: before => !endsInOpenRegional before
  | _ => false

/-- Whether two parts of a Hangul syllable belong together. -/
def hangulJoins : BreakClass → BreakClass → Bool
  | .hangulLeading, .hangulLeading => true
  | .hangulLeading, .hangulVowel => true
  | .hangulLeading, .hangulOpen => true
  | .hangulLeading, .hangulClosed => true
  | .hangulOpen, .hangulVowel => true
  | .hangulOpen, .hangulTrailing => true
  | .hangulVowel, .hangulVowel => true
  | .hangulVowel, .hangulTrailing => true
  | .hangulClosed, .hangulTrailing => true
  | .hangulTrailing, .hangulTrailing => true
  | _, _ => false

/-- Whether a character of class `next` belongs to the cluster of the character before it. -/
def joins (before : List BreakClass) (next : BreakClass) : Bool :=
  match before with
  | [] => false
  | last :: earlier =>
    if last.isControl || next.isControl then last = .carriageReturn && next = .lineFeed
    else if next.isExtender || next = .joiner || next = .spacingMark then true
    else if last = .prepended || hangulJoins last next then true
    else if next = .consonant then endsInLinked false before
    else if next = .pictograph then last = .joiner && endsInPictograph earlier
    else next = .regional && endsInOpenRegional before

/-- A text that is being cut: the classes of its characters and its clusters, the nearest first, the
characters of each cluster in reverse too. -/
structure Cutting where
  classes : List BreakClass
  clusters : List (List Char)
  deriving DecidableEq, Repr

namespace Cutting

/-- The clusters in the order of the text. -/
def result (s : Cutting) : List (List Char) := (s.clusters.map List.reverse).reverse

/-- Adds a character to the last cluster, or begins a new one with it. -/
def step (s : Cutting) (c : Char) : Cutting :=
  let k := breakClass c
  let clusters := match joins s.classes k, s.clusters with
    | true, cluster :: rest => (c :: cluster) :: rest
    | _, clusters => [c] :: clusters
  ⟨k :: s.classes, clusters⟩

theorem flatten_result_step (s : Cutting) (c : Char) :
    (s.step c).result.flatten = s.result.flatten ++ [c] := by
  simp only [step, result]
  split <;> simp_all

theorem flatten_result_foldl (s : Cutting) (cs : List Char) :
    (cs.foldl step s).result.flatten = s.result.flatten ++ cs := by
  induction cs generalizing s with
  | nil => simp
  | cons c cs ih => simp [ih, flatten_result_step]

end Cutting

/-- The clusters of a text, in order. -/
def clusters (cs : List Char) : List (List Char) := (cs.foldl Cutting.step ⟨[], []⟩).result

/-- Nothing of a text is lost when it is cut. -/
theorem flatten_clusters (cs : List Char) : (clusters cs).flatten = cs := by
  rw [clusters, Cutting.flatten_result_foldl]
  rfl

end MiniScheme.Text
