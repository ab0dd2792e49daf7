import MiniScheme.Arity

/-!
# Primitive procedures

The names and arities of the procedures that every program begins with. What they do is in
`MiniScheme.Eval.Primitive`.
-/
namespace MiniScheme

inductive Primitive where
  | add
  | subtract
  | multiply
  | divide
  | equals
  | less
  | lessOrEqual
  | greater
  | greaterOrEqual
  | cons
  | car
  | cdr
  | list
  | isNull
  | isPair
  | isNumber
  | isBoolean
  | isSymbol
  | isString
  | isCharacter
  | isProcedure
  | not
  | isSame
  | isEqual
  deriving DecidableEq, Repr

namespace Primitive

/-- Every primitive once. -/
def all : List Primitive :=
  [.add, .subtract, .multiply, .divide, .equals, .less, .lessOrEqual, .greater, .greaterOrEqual,
   .cons, .car, .cdr, .list, .isNull, .isPair, .isNumber, .isBoolean, .isSymbol, .isString,
   .isCharacter, .isProcedure, .not, .isSame, .isEqual]

/-- The name a primitive is bound to at first and is shown by. -/
def name : Primitive → String
  | .add => "+"
  | .subtract => "-"
  | .multiply => "*"
  | .divide => "/"
  | .equals => "="
  | .less => "<"
  | .lessOrEqual => "<="
  | .greater => ">"
  | .greaterOrEqual => ">="
  | .cons => "cons"
  | .car => "car"
  | .cdr => "cdr"
  | .list => "list"
  | .isNull => "null?"
  | .isPair => "pair?"
  | .isNumber => "number?"
  | .isBoolean => "boolean?"
  | .isSymbol => "symbol?"
  | .isString => "string?"
  | .isCharacter => "char?"
  | .isProcedure => "procedure?"
  | .not => "not"
  | .isSame => "eq?"
  | .isEqual => "equal?"

def arity : Primitive → Arity
  | .add | .multiply | .list => .atLeast 0
  | .subtract | .divide => .atLeast 1
  | .equals | .less | .lessOrEqual | .greater | .greaterOrEqual => .atLeast 2
  | .cons | .isSame | .isEqual => .exactly 2
  | .car | .cdr | .not | .isNull | .isPair | .isNumber | .isBoolean | .isSymbol | .isString
  | .isCharacter | .isProcedure => .exactly 1

theorem mem_all (p : Primitive) : p ∈ all := by
  cases p <;> decide

theorem name_injective {p q : Primitive} (h : p.name = q.name) : p = q := by
  revert h
  cases p <;> cases q <;> decide

end Primitive
end MiniScheme
