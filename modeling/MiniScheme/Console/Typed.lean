import MiniScheme.Source.Position
import MiniScheme.Text.Cluster

/-!
# Typed text

A backspace in a text that is read takes back the cluster before it that still stands; with none
left it does nothing. The width of a cluster is remembered in one byte, so of a cluster of 256 bytes
or more only the last bytes, as many as the remainder says, are taken back.
-/
namespace MiniScheme

/-- The character that takes back. -/
def backspace : Char := '\x08'

/-- What is left when that many bytes are taken from the front of a text. A cut that would go
through a character takes it whole. No text is left there for a line editor that cuts bytes, which
stops instead; only a width that was not remembered whole, of a cluster of 256 bytes or more, leads
to such a cut. -/
def dropBytes : Nat → List Char → List Char
  | 0, cs => cs
  | _ + 1, [] => []
  | n + 1, c :: cs => dropBytes (n + 1 - c.utf8Size) cs

/-- What stands of a text that is typed: its characters and the widths of its clusters, the latest
first. -/
structure Typed where
  text : List Char
  widths : List UInt8
  deriving DecidableEq, Repr

namespace Typed

/-- Adds a cluster. -/
def put (t : Typed) (cluster : List Char) : Typed :=
  ⟨cluster.reverse ++ t.text, UInt8.ofNat (byteLength cluster) :: t.widths⟩

/-- Takes back the latest cluster. -/
def takeBack (t : Typed) : Typed :=
  match t.widths with
  | [] => t
  | width :: widths => ⟨dropBytes width.toNat t.text, widths⟩

/-- Takes a cluster of the input. -/
def step (t : Typed) (cluster : List Char) : Typed :=
  if cluster = [backspace] then t.takeBack else t.put cluster

/-- The text that stands once all clusters of an input are taken. -/
def replay (cs : List Char) : List Char :=
  ((Text.clusters cs).foldl step ⟨[], []⟩).text.reverse

theorem text_foldl_step {clusters : List (List Char)} (h : [backspace] ∉ clusters) (t : Typed) :
    (clusters.foldl step t).text = clusters.flatten.reverse ++ t.text := by
  induction clusters generalizing t with
  | nil => rfl
  | cons cluster clusters ih =>
    rw [List.mem_cons, not_or] at h
    rw [List.foldl_cons, ih h.2, step, if_neg (Ne.symm h.1)]
    simp [put]

/-- A text without a backspace stands as it is. -/
theorem replay_of_not_mem {cs : List Char} (h : backspace ∉ cs) : replay cs = cs := by
  have absent : [backspace] ∉ Text.clusters cs := by
    intro found
    refine h ?_
    rw [← Text.flatten_clusters cs]
    exact List.mem_flatten_of_mem found (List.mem_singleton.2 rfl)
  rw [replay, text_foldl_step absent, Text.flatten_clusters]
  simp

/-- As `replay`; a text without a backspace is not cut at all. -/
def corrected (cs : List Char) : List Char := if backspace ∈ cs then replay cs else cs

theorem corrected_eq_replay (cs : List Char) : corrected cs = replay cs := by
  by_cases h : backspace ∈ cs
  · rw [corrected, if_pos h]
  · rw [corrected, if_neg h, replay_of_not_mem h]

end Typed
end MiniScheme
