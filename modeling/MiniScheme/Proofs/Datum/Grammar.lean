import MiniScheme.Datum.Read

/-!
# The grammar of data

    datum ::= atom | ( datum* ) | [ datum* ] | ( datum+ . datum ) | [ datum+ . datum ] | ' datum

`Derives p d k` says that the tokens `p` are a datum by this grammar, that it denotes `d` and that
it nests `k` deep. The relation is about kinds of tokens only: it has no stack, no limit and no
errors, and the datum denoted has no spans. `Viable` says which token lists can still become a datum
within a limit.
-/
namespace MiniScheme

/-- The same tree with every span forgotten. -/
def Sexpr.erase {κ ρ : Type} : Sexpr κ ρ → Sexpr κ ρ
  | .atom _ a => .atom default a
  | .nil _ => .nil default
  | .pair _ m a d => .pair default m a.erase d.erase
  | .leaf _ r => .leaf default r

namespace Grammar

/-- Elements folded from the right onto a tail. -/
def chain (elements : List Datum) (tail : Datum) : Datum :=
  elements.foldr (Datum.cons default) tail

/-- The empty list. -/
def nothing : Datum := .nil default

/-- The list `(quote d)`. -/
def quotation (d : Datum) : Datum :=
  chain [.atom default (.symbol "quote"), d] nothing

mutual

/-- The tokens of one datum, what it denotes and how deep it nests: an atom not at all, a list or a
quotation one deeper than the deepest datum directly in it. -/
inductive Derives : List Token → Datum → Nat → Prop where
  | atom {t : Token} {a : Atom} (isAtom : t.kind = .atom a) : Derives [t] (.atom default a) 0
  | list {o c : Token} {b : Bracket} {p : List Token} {ds : List Datum} {k : Nat}
      (opens : o.kind = .opener b) (inner : DerivesAll p ds k) (closes : c.kind = .closer b) :
      Derives (o :: (p ++ [c])) (chain ds nothing) (k + 1)
  | dotted {o t c : Token} {b : Bracket} {p q : List Token} {ds : List Datum} {d : Datum}
      {k j : Nat} (opens : o.kind = .opener b) (inner : DerivesAll p ds k) (nonempty : ds ≠ [])
      (isDot : t.kind = .dot) (last : Derives q d j) (closes : c.kind = .closer b) :
      Derives (o :: (p ++ t :: (q ++ [c]))) (chain ds d) (max k j + 1)
  | quote {m : Token} {p : List Token} {d : Datum} {k : Nat}
      (marks : m.kind = .quote) (inner : Derives p d k) : Derives (m :: p) (quotation d) (k + 1)

/-- The tokens of data one after another, with the depth of the deepest. -/
inductive DerivesAll : List Token → List Datum → Nat → Prop where
  | nil : DerivesAll [] [] 0
  | cons {p q : List Token} {d : Datum} {ds : List Datum} {k j : Nat}
      (head : Derives p d k) (tail : DerivesAll q ds j) : DerivesAll (p ++ q) (d :: ds) (max k j)

end

/-- The tokens are a datum. -/
def IsDatum (p : List Token) : Prop := ∃ d k, Derives p d k

/-- More tokens can make the tokens a datum within a limit. -/
def Viable (limit : Nat) (p : List Token) : Prop :=
  ∃ q d k, Derives (p ++ q) d k ∧ k ≤ limit

theorem derivesAll_snoc {p q : List Token} {d : Datum} {ds : List Datum} {k j : Nat}
    (front : DerivesAll p ds k) (last : Derives q d j) :
    DerivesAll (p ++ q) (ds ++ [d]) (max k j) := by
  induction ds generalizing p k with
  | nil =>
    cases front
    have single := DerivesAll.cons last DerivesAll.nil
    simpa using single
  | cons e es ih =>
    cases front with
    | cons head tail =>
      have longer := DerivesAll.cons head (ih tail)
      simpa only [List.append_assoc, List.cons_append, Nat.max_assoc] using longer

end Grammar

@[simp] theorem erase_withSpan {κ ρ : Type} (s : Span) (t : Sexpr κ ρ) :
    (t.withSpan s).erase = t.erase := by
  cases t <;> rfl

@[simp] theorem Sexpr.span_erase {κ ρ : Type} (t : Sexpr κ ρ) : t.erase.span = default := by
  cases t <;> rfl

@[simp] theorem Sexpr.withSpan_erase {κ ρ : Type} (t : Sexpr κ ρ) :
    t.erase.withSpan default = t.erase := by
  cases t <;> rfl

theorem erase_ofList (elements : List Datum) (tail : Datum) :
    (Datum.ofList elements tail).erase = Grammar.chain (elements.map Sexpr.erase) tail.erase := by
  induction elements with
  | nil => rfl
  | cons d ds ih =>
    simp only [Datum.ofList, List.foldr_cons, Sexpr.erase, Grammar.chain, List.map_cons] at ih ⊢
    rw [ih]

theorem erase_finish (opener : Token) (elements : List Datum) (tail : Datum) (stop : Nat) :
    (Reader.finish opener elements tail stop).erase =
      Grammar.chain (elements.reverse.map Sexpr.erase) tail.erase := by
  rw [Reader.finish, erase_withSpan, erase_ofList]

end MiniScheme
