/-!
# Arities

How many arguments a procedure takes.
-/
namespace MiniScheme

/-- Exactly `required` arguments, or at least that many if `variadic`. -/
structure Arity where
  required : Nat
  variadic : Bool
  deriving DecidableEq, Repr

namespace Arity

def exactly (n : Nat) : Arity := ⟨n, false⟩

def atLeast (n : Nat) : Arity := ⟨n, true⟩

/-- The arity of a list of formals, whose last takes all further arguments if `variadic`. If there
is no last one the subtraction is cut off at zero. -/
def ofFormals (formals : List String) (variadic : Bool) : Arity :=
  if variadic then atLeast (formals.length - 1) else exactly formals.length

def accepts (a : Arity) (count : Nat) : Bool :=
  if a.variadic then a.required ≤ count else count == a.required

def text (a : Arity) : String :=
  (if a.variadic then "at least " else "exactly ") ++ a.required.repr ++
    (if a.required = 1 then " argument" else " arguments")

theorem accepts_exactly (n count : Nat) : (exactly n).accepts count = true ↔ count = n := by
  simp [accepts, exactly]

theorem accepts_atLeast (n count : Nat) : (atLeast n).accepts count = true ↔ n ≤ count := by
  exact decide_eq_true_iff

end Arity
end MiniScheme
