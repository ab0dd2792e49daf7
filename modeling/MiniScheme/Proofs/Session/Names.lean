import MiniScheme.Proofs.Datum.Blame
import MiniScheme.Proofs.Datum.RoundTrip
import MiniScheme.Proofs.Eval.Equality
import MiniScheme.Proofs.Eval.Naming
import MiniScheme.Proofs.Token.Longest

/-!
# Every name is a symbol

A session that has been fed nothing but texts binds in its global frame only names that can be
written as symbols: a symbol of a datum that was read is spelled by a token, and the primitives and
the quotation that a quote mark abbreviates are named by symbols too. This fails of a session that
evaluates data from elsewhere, whose symbols may have any name.
-/
namespace MiniScheme

open Lexeme (classify classify_longest)

/-- The name is a symbol as a text writes it. -/
def Lexeme.IsSymbol (name : String) : Prop := name.toList ∈ symbol.language

namespace Lexeme

theorem isSymbol_of_classify {name : String} {c : Char} {cs : List Char}
    (chars : name.toList = c :: cs) (whole : classify c cs = (symbol, cs.length)) :
    IsSymbol name := by
  have known : (classify c cs).1 ≠ unknown := by
    rw [whole]
    exact nofun
  have matched := (classify_longest known).1
  rw [whole, List.take_length, ← chars] at matched
  exact matched

theorem isSymbol_of_decode {c : Char} {cs : List Char} {name : String}
    (decoded : Literal.decode (classify c cs).1 (c :: cs.take (classify c cs).2) =
      .ok (.atom (.symbol name))) : IsSymbol name := by
  obtain ⟨lexeme, rfl⟩ := decode_eq_symbol decoded
  have known : (classify c cs).1 ≠ unknown := by
    rw [lexeme]
    exact nofun
  have matched := (classify_longest known).1
  rw [lexeme] at matched
  rwa [IsSymbol, String.toList_ofList]

theorem isSymbol_primitive (p : Primitive) : IsSymbol p.name := by
  cases p <;> exact isSymbol_of_classify (by rfl) (by rfl)

theorem isSymbol_keyword (k : Keyword) : IsSymbol k.name := by
  cases k <;> exact isSymbol_of_classify (by rfl) (by rfl)

end Lexeme

open Lexeme (IsSymbol isSymbol_of_decode isSymbol_keyword isSymbol_primitive)

theorem Datum.names_of_occurs {N : String → Prop} {d : Datum}
    (each : ∀ name, Sexpr.Occurs (.symbol name) d → N name) : d.Names N := by
  induction d with
  | atom span a =>
    cases a with
    | symbol name => exact each name ((occurs_atom _ _ _).mpr rfl)
    | _ => trivial
  | nil => trivial
  | leaf _ r => exact r.elim
  | pair span _ car cdr ihCar ihCdr =>
    exact ⟨ihCar fun name inside => each name ((occurs_pair span _ car cdr).mpr (.inl inside)),
      ihCdr fun name inside => each name ((occurs_pair span _ car cdr).mpr (.inr inside))⟩

namespace Reader

/-- Every symbol of a datum that was read is written so, or is that of a quotation. -/
theorem names_of_read {limit : Nat} {source : String} {items rest : List Item} {d : Datum}
    (ofSource : ∀ item ∈ items, item ∈ scan source) (success : read limit items = (.ok d, rest)) :
    d.Names IsSymbol := by
  obtain ⟨tokens, k, rfl, derived, -⟩ := derives_of_read success
  have scanned (t : Token) (mem : t ∈ tokens) : .ok t ∈ scan source :=
    ofSource (.ok t) (List.mem_append_left rest (List.mem_map_of_mem mem))
  refine Datum.names_of_occurs fun name occurs => ?_
  have spelled := Datum.spelled_of_derives derived ((Datum.occurs_erase _ d).mpr occurs)
  obtain ⟨c, cs, decoded⟩ | mark := Datum.scanned_of_spelled scanned spelled
  · exact isSymbol_of_decode decoded
  · cases mark
    exact isSymbol_keyword .quote

theorem names_of_readAll {limit : Nat} {source : String} {items : List Item} {d : Datum}
    (ofSource : ∀ item ∈ items, item ∈ scan source) (success : .ok d ∈ readAll limit items) :
    d.Names IsSymbol := by
  fun_induction readAll limit items with
  | case1 => cases success
  | case2 => cases List.mem_singleton.mp success
  | case3 first rest result d' ok ih =>
    obtain same | later := List.mem_cons.mp success
    · cases same
      exact names_of_read ofSource (Prod.ext ok rfl)
    · obtain ⟨consumed, split⟩ := read_consumes limit (first :: rest)
      refine ih (fun item mem => ofSource item ?_) later
      rw [split]
      exact List.mem_append_right consumed mem

end Reader

namespace Session

/-- The sessions that begin fresh and are handed texts, and nothing but texts. -/
inductive Fed (maxDepth fuel : Nat) : Session → Prop where
  | fresh : Fed maxDepth fuel { fresh maxDepth with fuel }
  | run {s : Session} (source : String) (before : Fed maxDepth fuel s) :
      Fed maxDepth fuel (s.run source).session
  | evalText {s : Session} (source : String) (before : Fed maxDepth fuel s) :
      Fed maxDepth fuel (s.evalText source).2

variable {N : String → Prop} {s : Session}

theorem named_fresh (primitives : ∀ p : Primitive, N p.name) (maxDepth : Nat) :
    (fresh maxDepth).store.Named N := by
  refine ⟨⟨⟨none, .primitives⟩, rfl, ?_⟩, ⟨?_, ?_⟩⟩
  · intro name bound
    simp only [Bindings.names, Bindings.primitives, List.map_map, List.mem_map] at bound
    obtain ⟨p, -, rfl⟩ := bound
    exact primitives p
  · intro f frame name v there binding
    have only : frame = ⟨none, .primitives⟩ := by
      have member := Array.mem_of_getElem? there
      simpa [fresh, Store.addGlobal, Store.addFrame, Store.empty] using member
    subst only
    obtain ⟨p, rfl⟩ := Bindings.get?_primitives binding
    trivial
  · intro id c there
    cases there

theorem named_evalDatum {d : Datum} (named : s.store.Named N) (names : d.Names N) :
    (s.evalDatum d).2.store.Named N := by
  rw [store_evalDatum]
  have loaded : (s.store.load d).2.Named N := named.nextCell _
  have expression := Value.names_ofDatum names s.store.nextCell
  exact ((naming N).obeys_eval (w := ()) s.fuel trivial expression _ loaded).1

theorem Fed.named {maxDepth fuel : Nat} (fed : Fed maxDepth fuel s) : s.store.Named IsSymbol := by
  have each (limit : Nat) (source : String) (s : Session) (d : Datum)
      (success : .ok d ∈ Reader.readAll limit (scan source)) (named : s.store.Named IsSymbol) :
      (s.evalDatum d).2.store.Named IsSymbol :=
    named_evalDatum named (Reader.names_of_readAll (fun _ mem => mem) success)
  induction fed with
  | fresh => exact named_fresh isSymbol_primitive maxDepth
  | run source _ ih => exact runRead_keeps (each _ source) ih
  | evalText source _ ih => exact evalRead_keeps (each _ source) _ ih

/-- Every name bound in the global frame of a session that was fed texts is a symbol. -/
theorem Fed.isSymbol {maxDepth fuel : Nat} (fed : Fed maxDepth fuel s) :
    ∀ name ∈ s.names, IsSymbol name := by
  obtain ⟨frame, there, names⟩ := fed.named.globals
  rw [Session.names, Store.visible, there]
  cases parent : frame.parent with
  | none => simpa [parent] using names
  | some p => simpa [parent, globalFrame] using names

end Session
end MiniScheme
