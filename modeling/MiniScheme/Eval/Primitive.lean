import MiniScheme.Eval.Machine

/-!
# What the primitives do

Each primitive checks its own arguments, their number included, so it may be called on any list of
values: it says itself how many it asks for, and does not look at its arity. Numbers are checked
from left to right before anything is computed.
-/
namespace MiniScheme.Primitive

/-- The arguments as numbers, or an error for the first that is none; `position` counts from the
first argument of the call. -/
def numbersFrom (p : Primitive) (span : Span) (position : Nat) :
    List Value → Except EvalError (List Float)
  | [] => .ok []
  | .number _ x :: rest => (numbersFrom p span (position + 1) rest).map (x :: ·)
  | v :: _ => .error (.argument (.notNumber p position v.typeName) span)

/-- All arguments as numbers. -/
def numbers (p : Primitive) (span : Span) (args : List Value) : Except EvalError (List Float) :=
  numbersFrom p span 1 args

/-- Whether a relation holds between all neighbours. -/
def chained (r : Float → Float → Bool) : List Float → Bool
  | a :: b :: rest => r a b && chained r (b :: rest)
  | _ => true

/-- The error of a call with another number of arguments than the primitive asks for. -/
def wrongCount (asked : Arity) (args : List Value) (span : Span) : EvalError :=
  .arity asked args.length span

/-- A sum or a product. -/
def fold (p : Primitive) (start : Float) (op : Float → Float → Float) (args : List Value)
    (span : Span) : Except EvalError Value :=
  (numbers p span args).map fun xs => .number span (xs.foldl op start)

/-- A comparison. All arguments are checked even if the first two decide. -/
def compare (p : Primitive) (r : Float → Float → Bool) (args : List Value) (span : Span) :
    Except EvalError Value :=
  (numbers p span args).map fun xs => .boolean span (chained r xs)

/-- The first number less all others; of one number, its negative. -/
def difference (args : List Value) (span : Span) : Except EvalError Value :=
  match numbers .subtract span args with
  | .error e => .error e
  | .ok [] => .error (wrongCount (.atLeast 1) args span)
  | .ok [x] => .ok (.number span (-x))
  | .ok (x :: xs) => .ok (.number span (xs.foldl (· - ·) x))

/-- A number over divisors, none of which may be a zero of either sign. -/
def divideBy (x : Float) (divisors : List Float) (span : Span) : Except EvalError Value :=
  if divisors.any (· == 0.0) then .error (.argument .divisionByZero span)
  else .ok (.number span (divisors.foldl (· / ·) x))

/-- The first number over all others; of one number, its inverse. -/
def quotient (args : List Value) (span : Span) : Except EvalError Value :=
  match numbers .divide span args with
  | .error e => .error e
  | .ok [] => .error (wrongCount (.atLeast 1) args span)
  | .ok [x] => divideBy 1.0 [x] span
  | .ok (x :: xs) => divideBy x xs span

/-- A part of the one argument, which must be a pair. The error points at the argument. -/
def part (p : Primitive) (select : Value → Value → Value) (args : List Value) (span : Span) :
    Except EvalError Value :=
  match args with
  | [.pair _ _ first second] => .ok (select first second)
  | [v] => .error (.argument (.notPair p v.typeName) v.span)
  | _ => .error (wrongCount (.exactly 1) args span)

/-- A test of the one argument. -/
def test (holds : Value → Bool) (args : List Value) (span : Span) : Except EvalError Value :=
  match args with
  | [v] => .ok (.boolean span (holds v))
  | _ => .error (wrongCount (.exactly 1) args span)

/-- A relation of the two arguments. -/
def relate (holds : Value → Value → Bool) (args : List Value) (span : Span) :
    Except EvalError Value :=
  match args with
  | [v, w] => .ok (.boolean span (holds v w))
  | _ => .error (wrongCount (.exactly 2) args span)

/-- Calls a primitive at a span. Only `cons` and `list` change the store, by making pairs. -/
def call (p : Primitive) (args : List Value) (span : Span) : Machine Value :=
  match p with
  | .add => .ofExcept (fold .add 0.0 (· + ·) args span)
  | .subtract => .ofExcept (difference args span)
  | .multiply => .ofExcept (fold .multiply 1.0 (· * ·) args span)
  | .divide => .ofExcept (quotient args span)
  | .equals => .ofExcept (compare .equals (· == ·) args span)
  | .less => .ofExcept (compare .less (fun a b => decide (a < b)) args span)
  | .lessOrEqual => .ofExcept (compare .lessOrEqual (fun a b => decide (a ≤ b)) args span)
  | .greater => .ofExcept (compare .greater (fun a b => decide (b < a)) args span)
  | .greaterOrEqual => .ofExcept (compare .greaterOrEqual (fun a b => decide (b ≤ a)) args span)
  | .cons =>
    match args with
    | [a, d] => .make fun s => s.addPair span a d
    | _ => .fail (wrongCount (.exactly 2) args span)
  | .car => .ofExcept (part .car (fun a _ => a) args span)
  | .cdr => .ofExcept (part .cdr (fun _ d => d) args span)
  | .list =>
    .make fun s =>
      let (v, s) := s.addList (.nil span) args
      (v.withSpan span, s)
  | .isNull => .ofExcept (test Value.isNull args span)
  | .isPair => .ofExcept (test Value.isPair args span)
  | .isNumber => .ofExcept (test Value.isNumber args span)
  | .isBoolean => .ofExcept (test Value.isBoolean args span)
  | .isSymbol => .ofExcept (test Value.isSymbol args span)
  | .isString => .ofExcept (test Value.isString args span)
  | .isCharacter => .ofExcept (test Value.isCharacter args span)
  | .isProcedure => .ofExcept (test Value.isProcedure args span)
  | .not => .ofExcept (test (fun v => !v.isTrue) args span)
  | .isSame => .ofExcept (relate Value.same args span)
  | .isEqual => .ofExcept (relate Value.equal args span)

end MiniScheme.Primitive
