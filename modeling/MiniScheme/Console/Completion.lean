import MiniScheme.Session

/-!
# Completion

A symbol that the cursor touches can be completed to a keyword or to a name of the global frame that
it is the beginning of. A candidate is what is missing.
-/
namespace MiniScheme

/-- The names of a list, each once and in increasing order of their code points, which is also the
order of their UTF-8 bytes. -/
def Text.sorted (names : List String) : List String :=
  names.eraseDups.mergeSort fun a b => decide (a ≤ b)

namespace Completion

/-- The characters before a byte offset. -/
def before (offset : Nat) : List Char → List Char
  | [] => []
  | c :: cs => if c.utf8Size ≤ offset then c :: before (offset - c.utf8Size) cs else []

/-- What is left of a text after a beginning. -/
def suffix? : List Char → List Char → Option (List Char)
  | [], cs => some cs
  | _ :: _, [] => none
  | b :: bs, c :: cs => if b = c then suffix? bs cs else none

theorem suffix?_eq_some_iff {bs cs rest : List Char} :
    suffix? bs cs = some rest ↔ cs = bs ++ rest := by
  induction bs generalizing cs with
  | nil => simp [suffix?, eq_comm]
  | cons b bs ih =>
    cases cs with
    | nil => simp [suffix?]
    | cons c cs =>
      by_cases h : b = c
      · simp [suffix?, h, ih]
      · simp [suffix?, h, Ne.symm h]

/-- The symbol that ends a text, if the text can be scanned and ends in one. -/
def touched? (cs : List Char) : Option String :=
  match Scan.allTokens (Scan.items cs) with
  | .error _ => none
  | .ok tokens =>
    match tokens.getLast? with
    | some ⟨.atom (.symbol name), span, _⟩ => if span.stop = byteLength cs then some name else none
    | _ => none

/-- What some of the names have after a beginning, in order. -/
def suffixes (names : List String) (beginning : String) : List String :=
  Text.sorted <| names.filterMap fun name =>
    match suffix? beginning.toList name.toList with
    | some (c :: cs) => some (String.ofList (c :: cs))
    | _ => none

/-- The candidates at a byte offset of a line. -/
def candidates (s : Session) (line : String) (offset : Nat) : List String :=
  match touched? (before offset line.toList) with
  | some beginning => suffixes (s.names ++ Keyword.all.map Keyword.name) beginning
  | none => []

end Completion
end MiniScheme
