import MiniScheme.Store

/-!
# Inspecting procedures

What can be told of a procedure beyond its external form: its arity and, for a closure, the names of
its formals. What a closure does is in the store, so both need one.
-/
namespace MiniScheme.Procedure

/-- The arity of a procedure; `none` for a closure that the store does not hold. -/
def arity? (s : Store) : Procedure → Option Arity
  | .primitive p => some p.arity
  | .closure id _ => s.closures[id]?.map Closure.arity

/-- A name in quotes, all its characters to be seen. -/
def shownName (name : String) : String :=
  String.ofList (Text.quoted Text.visibleEscape name.toList)

/-- A description of a procedure; `none` for a closure that the store does not hold. -/
def describe? (s : Store) : Procedure → Option String
  | .primitive p => some ("Primitive(" ++ p.name ++ ")")
  | .closure id name =>
    s.closures[id]?.map fun c =>
      let shown := match name with
        | some n => "Some(" ++ shownName n ++ ")"
        | none => "None"
      let formals := ", ".intercalate (c.formals.map shownName)
      let variadic := if c.variadic then "true" else "false"
      "Lambda(" ++ shown ++ ", [" ++ formals ++ "], variadic: " ++ variadic ++ ")"

end MiniScheme.Procedure
