import MiniScheme.Datum
import MiniScheme.Primitive

/-!
# Values

A value is an S-expression whose leaves may also be procedures or the unspecified value, and whose
pairs are marked with an identity. Programs are values too: what a source text denotes becomes a
value, with fresh identities, before it is evaluated.

A closure is shown by its name and known by its identity; what it does is in the store.
-/
namespace MiniScheme

/-- Identity of a pair: two pairs with one identity are one pair. -/
abbrev CellId := Nat

/-- Identity of a closure. -/
abbrev ClosureId := Nat

inductive Procedure where
  | primitive (p : Primitive)
  | closure (id : ClosureId) (name : Option String)
  deriving DecidableEq, Repr

/-- Primitives are the same by name, closures by identity. -/
def Procedure.same : Procedure → Procedure → Bool
  | .primitive p, .primitive q => p == q
  | .closure i _, .closure j _ => i == j
  | _, _ => false

/-- The external form, which cannot be read back. -/
def Procedure.chars : Procedure → List Char
  | .primitive p => "#<primitive:".toList ++ p.name.toList ++ ['>']
  | .closure _ (some name) => "#<procedure ".toList ++ name.toList ++ ['>']
  | .closure _ none => "#<procedure>".toList

/-- What only a computation makes. -/
inductive Computed where
  | unspecified
  | procedure (p : Procedure)
  deriving DecidableEq, Repr

namespace Computed

def same : Computed → Computed → Bool
  | .unspecified, .unspecified => true
  | .procedure p, .procedure q => p.same q
  | _, _ => false

def typeName : Computed → String
  | .unspecified => "unspecified"
  | .procedure _ => "procedure"

def chars : Computed → List Char
  | .unspecified => "#<unspecified>".toList
  | .procedure p => p.chars

end Computed

/-- What a program computes with. -/
abbrev Value := Sexpr CellId Computed

namespace Value

/-- The result of what is done for its effect. -/
@[match_pattern] abbrev unspecified (span : Span) : Value := .leaf span .unspecified

@[match_pattern] abbrev procedure (span : Span) (p : Procedure) : Value := .leaf span (.procedure p)

@[match_pattern] abbrev number (span : Span) (x : Float) : Value := .atom span (.number x)

@[match_pattern] abbrev boolean (span : Span) (b : Bool) : Value := .atom span (.boolean b)

/-- Equality of contents. One pair is equal to itself whatever it holds. -/
def equal (a b : Value) : Bool := a.equalBy (· == ·) Computed.same b

/-- Identity: pairs by identity, all else by equality. -/
def same : Value → Value → Bool
  | .pair _ i _ _, .pair _ j _ _ => i == j
  | a, b => a.equal b

def typeName (v : Value) : String := v.typeNameBy Computed.typeName

/-- The external form. -/
def chars (v : Value) : List Char := v.charsBy Computed.chars

/-- The external form as a string. -/
def text (v : Value) : String := String.ofList v.chars

def isUnspecified : Value → Bool
  | .unspecified _ => true
  | _ => false

def isNull : Value → Bool
  | .nil _ => true
  | _ => false

def isPair : Value → Bool
  | .pair _ _ _ _ => true
  | _ => false

def isNumber : Value → Bool
  | .atom _ (.number _) => true
  | _ => false

def isBoolean : Value → Bool
  | .atom _ (.boolean _) => true
  | _ => false

def isSymbol : Value → Bool
  | .atom _ (.symbol _) => true
  | _ => false

def isString : Value → Bool
  | .atom _ (.string _) => true
  | _ => false

def isCharacter : Value → Bool
  | .atom _ (.character _) => true
  | _ => false

def isProcedure : Value → Bool
  | .procedure _ _ => true
  | _ => false

/-- A datum as a value, its pairs marked from `next` on, and the first mark not used. -/
def ofDatum (next : CellId) : Datum → Value × CellId
  | .atom s a => (.atom s a, next)
  | .nil s => (.nil s, next)
  | .pair s _ a d =>
    let (car, afterCar) := ofDatum (next + 1) a
    let (cdr, afterCdr) := ofDatum afterCar d
    (.pair s next car cdr, afterCdr)
  | .leaf _ e => e.elim

end Value
end MiniScheme
