import MiniScheme.Proofs.Datum.Acceptance
import MiniScheme.Proofs.Token.Legible

/-!
# Written data are read back

A datum that was read, written in its external form and read again, is the same datum. The written
form has round brackets only, spells quotations out and puts no dot before a list, so its tokens
differ from those of the source; what carries over is the tree and that the depth does not grow.
Numbers that are not finite are left out: their written forms are symbols.
-/
namespace MiniScheme

open Grammar (Derives DerivesAll chain nothing quotation derivesAll_snoc)
open Lexeme (Delimited Legible legible_dot)
open Reader (asItems)
open Scan (itemsOnto)

/-- The atom stands somewhere in the tree. -/
def Sexpr.Occurs {κ ρ : Type} (a : Atom) (t : Sexpr κ ρ) : Prop :=
  ∃ span, Sexpr.atom span a ∈ t.preorder

namespace Datum

theorem occurs_atom (span : Span) (a b : Atom) :
    Sexpr.Occurs b (.atom span a : Datum) ↔ b = a := by
  simp [Sexpr.Occurs, Sexpr.preorder]

theorem occurs_pair (span : Span) (a : Atom) (car cdr : Datum) :
    Sexpr.Occurs a (cons span car cdr) ↔ Sexpr.Occurs a car ∨ Sexpr.Occurs a cdr := by
  simp [Sexpr.Occurs, Sexpr.preorder, exists_or]

theorem occurs_erase (a : Atom) (d : Datum) : Sexpr.Occurs a d.erase ↔ Sexpr.Occurs a d := by
  induction d with
  | atom span b => rw [Sexpr.erase, occurs_atom, occurs_atom]
  | nil span => simp [Sexpr.Occurs, Sexpr.erase, Sexpr.preorder]
  | pair span mark car cdr car_ih cdr_ih =>
    rw [Sexpr.erase, occurs_pair, occurs_pair, car_ih, cdr_ih]
  | leaf span r => exact r.elim

theorem occurs_chain (a : Atom) (ds : List Datum) (tail : Datum) :
    Sexpr.Occurs a (chain ds tail) ↔ (∃ d ∈ ds, Sexpr.Occurs a d) ∨ Sexpr.Occurs a tail := by
  induction ds with
  | nil => simp [chain]
  | cons d ds ih =>
    have unfolded : chain (d :: ds) tail = cons default d (chain ds tail) := rfl
    rw [unfolded, occurs_pair, ih]
    simp [or_assoc]

/-- What follows the first element in the external form of a list. -/
def tailChars (d : Datum) : List Char := d.tailCharsBy fun e => e.elim

theorem chars_pair (span : Span) (car cdr : Datum) :
    (cons span car cdr).chars = '(' :: (car.chars ++ cdr.tailChars) := rfl

theorem tailChars_pair (span : Span) (car cdr : Datum) :
    (cons span car cdr).tailChars = ' ' :: (car.chars ++ cdr.tailChars) := rfl

mutual

/-- How deep the external form nests. -/
def depth : Datum → Nat
  | .atom _ _ => 0
  | .nil _ => 1
  | .pair _ _ car cdr => max (depth car) (tailDepth cdr) + 1
  | .leaf _ r => r.elim

/-- How deep what follows the first element of a list nests, that list apart. -/
def tailDepth : Datum → Nat
  | .atom _ _ => 0
  | .nil _ => 0
  | .pair _ _ car cdr => max (depth car) (tailDepth cdr)
  | .leaf _ r => r.elim

end

theorem depth_erase (d : Datum) : depth d.erase = depth d ∧ tailDepth d.erase = tailDepth d := by
  induction d with
  | atom | nil => exact ⟨rfl, rfl⟩
  | pair span mark car cdr car_ih cdr_ih =>
    simp only [Sexpr.erase, depth, tailDepth, car_ih.1, cdr_ih.2, and_self]
  | leaf _ r => exact r.elim

theorem tailDepth_le_depth (d : Datum) : d.tailDepth ≤ d.depth := by
  cases d with
  | atom | nil => exact Nat.zero_le _
  | pair => exact Nat.le_succ _
  | leaf _ r => exact r.elim

theorem tailDepth_chain_le {ds : List Datum} {tail : Datum} {k : Nat}
    (elements : ∀ d ∈ ds, d.depth ≤ k) (last : tail.tailDepth ≤ k) :
    (chain ds tail).tailDepth ≤ k := by
  induction ds with
  | nil => exact last
  | cons d ds ih =>
    have head := elements d List.mem_cons_self
    have rest := ih fun e mem => elements e (List.mem_cons_of_mem d mem)
    exact Nat.max_le.mpr ⟨head, rest⟩

/-- A list nests one deeper than its elements and its tail. -/
theorem depth_chain_le {ds : List Datum} {tail : Datum} {k : Nat} (nonempty : ds ≠ [])
    (elements : ∀ d ∈ ds, d.depth ≤ k) (last : tail.tailDepth ≤ k) :
    (chain ds tail).depth ≤ k + 1 := by
  obtain ⟨d, ds, rfl⟩ := List.exists_cons_of_ne_nil nonempty
  exact Nat.succ_le_succ (tailDepth_chain_le elements last)

theorem depth_list_le {ds : List Datum} {k : Nat} (elements : ∀ d ∈ ds, d.depth ≤ k) :
    (chain ds nothing).depth ≤ k + 1 := by
  cases ds with
  | nil => exact Nat.succ_le_succ (Nat.zero_le k)
  | cons d ds => exact depth_chain_le (List.cons_ne_nil d ds) elements (Nat.zero_le k)

mutual

/-- The external form of a datum nests no deeper than any text it was read from. -/
theorem depth_le_of_derives {p : List Token} {d : Datum} {k : Nat} : Derives p d k → d.depth ≤ k
  | .atom _ => Nat.le_refl 0
  | .list _ inner _ => depth_list_le (depth_le_of_derivesAll inner)
  | .dotted (d := tail) _ inner nonempty _ last _ => by
    have elements := depth_le_of_derivesAll inner
    have bound := depth_le_of_derives last
    have tailBound := tailDepth_le_depth tail
    apply depth_chain_le nonempty
    · intro d mem
      have := elements d mem
      omega
    · omega
  | .quote _ inner => by
    have bound := depth_le_of_derives inner
    apply depth_list_le
    intro e mem
    simp only [List.mem_cons, List.not_mem_nil, or_false] at mem
    obtain rfl | rfl := mem
    · exact Nat.zero_le _
    · exact bound

theorem depth_le_of_derivesAll {p : List Token} {ds : List Datum} {k : Nat} :
    DerivesAll p ds k → ∀ d ∈ ds, d.depth ≤ k
  | .nil => fun d mem => nomatch mem
  | .cons head tail => by
    have first := depth_le_of_derives head
    have others := depth_le_of_derivesAll tail
    intro d mem
    obtain rfl | later := List.mem_cons.mp mem
    · omega
    · have := others d later
      omega

end

/-- The atom stands in some token, or is the symbol that quote marks abbreviate. -/
def Spelled (a : Atom) (p : List Token) : Prop :=
  (∃ t ∈ p, t.kind = .atom a) ∨ a = .symbol "quote"

theorem Spelled.mono {a : Atom} {p q : List Token} (spelled : Spelled a p) (sub : p ⊆ q) :
    Spelled a q := by
  obtain ⟨t, mem, kind⟩ | mark := spelled
  · exact .inl ⟨t, sub mem, kind⟩
  · exact .inr mark

mutual

/-- The atoms of a datum are spelled by its tokens. -/
theorem spelled_of_derives {a : Atom} {p : List Token} {d : Datum} {k : Nat} :
    Derives p d k → Sexpr.Occurs a d → Spelled a p
  | .atom isAtom => by
    intro occurs
    rw [occurs_atom] at occurs
    subst occurs
    exact .inl ⟨_, List.mem_cons_self, isAtom⟩
  | .list _ inner _ => by
    have elements := spelled_of_derivesAll (a := a) inner
    intro occurs
    obtain element | ⟨_, mem⟩ := (occurs_chain _ _ _).mp occurs
    · exact (elements element).mono (by simp)
    · simp [nothing, Sexpr.preorder] at mem
  | .dotted _ inner _ _ last _ => by
    have elements := spelled_of_derivesAll (a := a) inner
    have tail := spelled_of_derives (a := a) last
    intro occurs
    obtain element | ending := (occurs_chain _ _ _).mp occurs
    · exact (elements element).mono (by simp)
    · exact (tail ending).mono fun t mem => by simp [mem]
  | .quote _ inner => by
    have quoted := spelled_of_derives (a := a) inner
    intro occurs
    obtain ⟨d, mem, element⟩ | ⟨_, mem⟩ := (occurs_chain _ _ _).mp occurs
    · simp only [List.mem_cons, List.not_mem_nil, or_false] at mem
      obtain rfl | rfl := mem
      · exact .inr ((occurs_atom _ _ _).mp element)
      · exact (quoted element).mono (List.subset_cons_self _ _)
    · simp [nothing, Sexpr.preorder] at mem

theorem spelled_of_derivesAll {a : Atom} {p : List Token} {ds : List Datum} {k : Nat} :
    DerivesAll p ds k → (∃ d ∈ ds, Sexpr.Occurs a d) → Spelled a p
  | .nil => by
    rintro ⟨d, mem, _⟩
    cases mem
  | .cons head tail => by
    have first := spelled_of_derives (a := a) head
    have others := spelled_of_derivesAll (a := a) tail
    rintro ⟨d, mem, occurs⟩
    obtain rfl | later := List.mem_cons.mp mem
    · exact (first occurs).mono (List.subset_append_left _ _)
    · exact (others ⟨d, later, occurs⟩).mono (List.subset_append_right _ _)

end

/-- The external form before a delimiter is scanned to tokens that derive the datum. -/
def Rereads (d : Datum) : Prop :=
  ∀ p rest, Delimited rest → ∃ tokens q,
    itemsOnto [] p (d.chars ++ rest) = asItems tokens ++ itemsOnto [] q rest ∧
      Derives tokens d.erase d.depth

/-- What follows the first element is scanned to tokens that close any list begun before it. -/
def RereadsTail (d : Datum) : Prop :=
  ∀ p rest, ∃ tokens q,
    itemsOnto [] p (d.tailChars ++ rest) = asItems tokens ++ itemsOnto [] q rest ∧
      ∀ {o front es k}, o.kind = .opener .round → DerivesAll front es k → es ≠ [] →
        Derives (o :: (front ++ tokens)) (chain es d.erase) (max k d.tailDepth + 1)

theorem scan_opening (p : Position) (cs : List Char) :
    ∃ (t : Token) (q : Position), t.kind = .opener .round ∧
      itemsOnto [] p ('(' :: cs) = .ok t :: itemsOnto [] q cs :=
  Scan.itemsOnto_lexeme [] p rfl rfl

theorem scan_closing (p : Position) (cs : List Char) :
    ∃ (t : Token) (q : Position), t.kind = .closer .round ∧
      itemsOnto [] p (')' :: cs) = .ok t :: itemsOnto [] q cs :=
  Scan.itemsOnto_lexeme [] p rfl rfl

theorem delimited_tailChars (d : Datum) (rest : List Char) : Delimited (d.tailChars ++ rest) := by
  cases d with
  | atom => exact .space _
  | nil => exact .closing _
  | pair => exact .space _
  | leaf _ r => exact r.elim

theorem rereads_atom {span : Span} {a : Atom} (legible : Legible a.chars (.atom a)) :
    Rereads (.atom span a) := by
  intro p rest delimited
  obtain ⟨t, q, kind, scanned⟩ := Scan.itemsOnto_legible p legible delimited
  exact ⟨[t], q, scanned, .atom kind⟩

theorem rereads_nil (span : Span) : Rereads (.nil span) := by
  intro p rest _
  obtain ⟨o, q, opens, first⟩ := scan_opening p (')' :: rest)
  obtain ⟨c, r, closes, second⟩ := scan_closing q rest
  refine ⟨[o, c], r, ?_, Derives.list opens .nil closes⟩
  change itemsOnto [] p ('(' :: ')' :: rest) = _
  rw [first, second]
  rfl

theorem rereads_pair {span : Span} {car cdr : Datum} (head : Rereads car)
    (tail : RereadsTail cdr) : Rereads (cons span car cdr) := by
  intro p rest delimited
  obtain ⟨o, q, opens, first⟩ := scan_opening p (car.chars ++ (cdr.tailChars ++ rest))
  obtain ⟨ts, r, second, derived⟩ := head q _ (delimited_tailChars cdr rest)
  obtain ⟨us, s, third, closes⟩ := tail r rest
  have list := closes opens (DerivesAll.cons derived .nil) (List.cons_ne_nil _ _)
  refine ⟨o :: (ts ++ us), s, ?_, ?_⟩
  · rw [chars_pair, List.cons_append, List.append_assoc, first, second, third]
    simp
  · rw [List.append_nil, Nat.max_zero] at list
    exact list

theorem rereadsTail_nil (span : Span) : RereadsTail (.nil span) := by
  intro p rest
  obtain ⟨c, q, closes, scanned⟩ := scan_closing p rest
  refine ⟨[c], q, scanned, ?_⟩
  intro o front es k opens elements _
  rw [tailDepth, Nat.max_zero]
  exact Derives.list opens elements closes

theorem chain_snoc (ds : List Datum) (d tail : Datum) :
    chain (ds ++ [d]) tail = chain ds (cons default d tail) := by
  simp [chain]

theorem rereadsTail_pair {span : Span} {car cdr : Datum} (head : Rereads car)
    (visible : ∃ c cs, car.chars = c :: cs ∧ Lexeme.isLayout c = false) (tail : RereadsTail cdr) :
    RereadsTail (cons span car cdr) := by
  intro p rest
  obtain ⟨q, space⟩ := Scan.itemsOnto_space p (cdr.tailChars ++ rest) visible
  obtain ⟨ts, r, first, derived⟩ := head q _ (delimited_tailChars cdr rest)
  obtain ⟨us, s, second, closes⟩ := tail r rest
  refine ⟨ts ++ us, s, ?_, ?_⟩
  · rw [tailChars_pair, List.cons_append, List.append_assoc, space, first, second]
    simp
  · intro o front es k opens elements _
    have longer := closes opens (derivesAll_snoc elements derived) (by simp)
    rw [chain_snoc, List.append_assoc, Nat.max_assoc] at longer
    exact longer

/-- A tail that is no list is written after a dot, and the dot stands between spaces. -/
theorem rereadsTail_atom {span : Span} {a : Atom} (legible : Legible a.chars (.atom a)) :
    RereadsTail (.atom span a) := by
  intro p rest
  have text : tailChars (.atom span a) ++ rest =
      ' ' :: (['.'] ++ ' ' :: (a.chars ++ ')' :: rest)) := by
    change ' ' :: '.' :: ' ' :: (a.chars ++ [')']) ++ rest = _
    simp
  obtain ⟨q, space⟩ := Scan.itemsOnto_space p (' ' :: (a.chars ++ ')' :: rest)) legible_dot.visible
  obtain ⟨t, r, isDot, first⟩ := Scan.itemsOnto_legible q legible_dot (.space _)
  obtain ⟨s, space'⟩ := Scan.itemsOnto_space r (')' :: rest) legible.visible
  obtain ⟨u, v, isAtom, second⟩ := Scan.itemsOnto_legible s legible (.closing rest)
  obtain ⟨c, w, closes, third⟩ := scan_closing v rest
  refine ⟨[t, u, c], w, ?_, ?_⟩
  · rw [text, space, first, space', second, third]
    rfl
  · intro o front es k opens elements nonempty
    exact Derives.dotted opens elements nonempty isDot (Derives.atom isAtom) closes

theorem visible_chars {d : Datum} (legible : ∀ a, Sexpr.Occurs a d → Legible a.chars (.atom a)) :
    ∃ c cs, d.chars = c :: cs ∧ Lexeme.isLayout c = false := by
  cases d with
  | atom span a => exact (legible a ((occurs_atom span a a).mpr rfl)).visible
  | nil => exact ⟨'(', _, rfl, rfl⟩
  | pair => exact ⟨'(', _, rfl, rfl⟩
  | leaf _ r => exact r.elim

/-- A datum of legible atoms is read back from its external form, also as the tail of a list. -/
theorem rereads (d : Datum) (legible : ∀ a, Sexpr.Occurs a d → Legible a.chars (.atom a)) :
    Rereads d ∧ RereadsTail d := by
  induction d with
  | atom span a =>
    have itself := legible a ((occurs_atom span a a).mpr rfl)
    exact ⟨rereads_atom itself, rereadsTail_atom itself⟩
  | nil span => exact ⟨rereads_nil span, rereadsTail_nil span⟩
  | pair span mark car cdr car_ih cdr_ih =>
    have carLegible : ∀ a, Sexpr.Occurs a car → Legible a.chars (.atom a) :=
      fun a occurs => legible a ((occurs_pair span a car cdr).mpr (.inl occurs))
    have cdrLegible : ∀ a, Sexpr.Occurs a cdr → Legible a.chars (.atom a) :=
      fun a occurs => legible a ((occurs_pair span a car cdr).mpr (.inr occurs))
    have head := (car_ih carLegible).1
    have tail := (cdr_ih cdrLegible).2
    exact ⟨rereads_pair head tail, rereadsTail_pair head (visible_chars carLegible) tail⟩
  | leaf _ r => exact r.elim

theorem equal_self_atom {a : Atom} (finite : ∀ x, a = .number x → x.isFinite) : a.equal a := by
  cases a with
  | number x => exact Number.beq_self x (finite x rfl)
  | boolean | character | string | symbol => simp [Atom.equal]

/-- Data that differ in spans only are equal, if every atom in them equals itself. -/
theorem equal_of_erase_eq {d e : Datum} (same : d.erase = e.erase)
    (selfEqual : ∀ a, Sexpr.Occurs a e → a.equal a) : equal d e = true := by
  induction e generalizing d with
  | atom span a =>
    cases d with
    | atom =>
      cases same
      exact selfEqual a ((occurs_atom span a a).mpr rfl)
    | _ => cases same
  | nil =>
    cases d with
    | nil => rfl
    | _ => cases same
  | pair span mark car cdr car_ih cdr_ih =>
    cases d with
    | pair _ _ car' cdr' =>
      obtain ⟨-, -, sameCar, sameCdr⟩ := Sexpr.pair.inj same
      have equalCar := car_ih sameCar fun a occurs =>
        selfEqual a ((occurs_pair span a car cdr).mpr (.inl occurs))
      have equalCdr := cdr_ih sameCdr fun a occurs =>
        selfEqual a ((occurs_pair span a car cdr).mpr (.inr occurs))
      unfold equal at equalCar equalCdr ⊢
      rw [Sexpr.equalBy, equalCar, equalCdr]
      rfl
    | _ => cases same
  | leaf _ r => exact r.elim

/-- A text is one datum exactly if its tokens are. -/
theorem parse_eq_ok_iff (source : String) (n : Datum) :
    parse source = .ok n ↔ Reader.read defaultMaxDepth (scan source) = (.ok n, []) := by
  unfold parse
  constructor
  · intro parsed
    split at parsed
    · cases parsed
    · next read =>
      cases parsed
      exact read
    · cases parsed
    · cases parsed
  · intro read
    rw [read]

theorem legible_quote : Legible (Atom.symbol "quote").chars (.atom (.symbol "quote")) := by
  have scanned : Literal.decode (Lexeme.classify 'q' ['u', 'o', 't', 'e']).1
      ('q' :: ['u', 'o', 't', 'e'].take (Lexeme.classify 'q' ['u', 'o', 't', 'e']).2) =
        .ok (.atom (.symbol "quote")) := by
    decide
  apply Lexeme.legible_of_scanned scanned
  intro x isNumber
  cases isNumber

/-- Every atom that tokens of a text spell was scanned, the symbol for quote marks apart. -/
theorem scanned_of_spelled {source : String} {tokens : List Token} {a : Atom}
    (scanned : ∀ t ∈ tokens, .ok t ∈ scan source) (spelled : Spelled a tokens) :
    (∃ c cs, Literal.decode (Lexeme.classify c cs).1 (c :: cs.take (Lexeme.classify c cs).2) =
      .ok (.atom a)) ∨ a = .symbol "quote" := by
  obtain ⟨t, mem, kind⟩ | mark := spelled
  · rw [← kind]
    exact .inl (Scan.exists_lexeme_of_mem (scanned t mem))
  · exact .inr mark

theorem mem_scan_of_asItems {source : String} {tokens : List Token}
    (scanned : scan source = asItems tokens) : ∀ t ∈ tokens, .ok t ∈ scan source := by
  intro t mem
  rw [scanned]
  exact List.mem_map_of_mem mem

/-- Every atom of a datum that was read is legible, the numbers that are not finite apart. -/
theorem legible_of_derives {source : String} {tokens : List Token} {d : Datum} {k : Nat}
    (scanned : scan source = asItems tokens) (derived : Derives tokens d k)
    (finite : ∀ x, Sexpr.Occurs (.number x) d → x.isFinite) :
    ∀ a, Sexpr.Occurs a d → Legible a.chars (.atom a) := by
  intro a occurs
  obtain ⟨c, cs, decoded⟩ | rfl :=
    scanned_of_spelled (mem_scan_of_asItems scanned) (spelled_of_derives derived occurs)
  · apply Lexeme.legible_of_scanned decoded
    rintro x rfl
    exact finite x occurs
  · exact legible_quote

/-- Every atom that the tokens of a text spell equals itself, also a number that is not finite. -/
theorem equal_self_of_spelled {source : String} {tokens : List Token} {a : Atom}
    (scanned : scan source = asItems tokens) (spelled : Spelled a tokens) : a.equal a := by
  cases a with
  | number x =>
    obtain ⟨c, cs, decoded⟩ | mark := scanned_of_spelled (mem_scan_of_asItems scanned) spelled
    · obtain ⟨decimal, rfl⟩ := Lexeme.exists_decimal_of_decode decoded
      exact Number.beq_self_toFloat decimal
    · cases mark
  | boolean | character | string | symbol => simp [Atom.equal]

theorem allTokens_asItems (tokens : List Token) : Scan.allTokens (asItems tokens) = .ok tokens := by
  induction tokens with
  | nil => rfl
  | cons t ts ih =>
    rw [Reader.asItems_cons, Scan.allTokens, ih]
    rfl

theorem tokenize_of_scan {source : String} {tokens : List Token}
    (scanned : scan source = asItems tokens) : tokenize source = .ok tokens := by
  rw [tokenize, scanned, allTokens_asItems]

/-- A text without lexical error has no items but its tokens. -/
theorem scan_of_tokenize {source : String} {tokens : List Token}
    (success : tokenize source = .ok tokens) : scan source = asItems tokens := by
  unfold tokenize at success
  generalize scan source = items at success ⊢
  induction items generalizing tokens with
  | nil =>
    cases success
    rfl
  | cons item items ih =>
    cases item with
    | error e => cases success
    | ok t =>
      rw [Scan.allTokens] at success
      cases later : Scan.allTokens items with
      | error e =>
        rw [later] at success
        cases success
      | ok ts =>
        rw [later] at success
        cases success
        rw [ih later, Reader.asItems_cons]

/-- Printing a datum that was read and reading it again gives the same datum, spans apart: the
printed text is scanned without error, its tokens derive the datum within the same limit, and what
is read from it is equal to the datum. -/
theorem text_parses_back (source : String) (n : Datum) (parsed : parse source = .ok n)
    (finite : ∀ x, Sexpr.Occurs (.number x) n → x.isFinite) :
    ∃ tokens k n', tokenize n.text = .ok tokens ∧ Derives tokens n.erase k ∧ k ≤ defaultMaxDepth ∧
      parse n.text = .ok n' ∧ equal n' n = true ∧ n'.erase = n.erase := by
  obtain ⟨tokens, k, scanned, derived, fits⟩ :=
    Reader.derives_of_read ((parse_eq_ok_iff source n).mp parsed)
  rw [List.append_nil] at scanned
  have legible : ∀ a, Sexpr.Occurs a n → Legible a.chars (.atom a) := by
    intro a occurs
    apply legible_of_derives scanned derived _ a ((occurs_erase a n).mpr occurs)
    intro x number
    exact finite x ((occurs_erase _ n).mp number)
  obtain ⟨written, q, rescanned, rederived⟩ := (rereads n legible).1 .first [] .stop
  have shallow : n.depth ≤ defaultMaxDepth := by
    have bound := depth_le_of_derives derived
    rw [(depth_erase n).1] at bound
    omega
  have all : scan n.text = asItems written := by
    unfold scan Scan.items text
    rw [String.toList_ofList, ← List.append_nil n.chars, rescanned, itemsOnto, List.reverse_nil,
      List.append_nil]
  obtain ⟨n', read, same⟩ := Reader.read_of_derives [] rederived shallow
  have equals : equal n' n = true := equal_of_erase_eq same fun a occurs =>
    equal_self_atom fun x isNumber => finite x (isNumber ▸ occurs)
  refine ⟨written, n.depth, n', ?_, rederived, shallow, ?_, equals, same⟩
  · unfold tokenize
    rw [all, allTokens_asItems]
  · rw [parse_eq_ok_iff, all, ← List.append_nil (asItems written)]
    exact read

/-- Square brackets, a dot before a list and a zero too many, none of them written again. -/
theorem text_parses_back_mixed :
    ∃ n n', parse "[#\\space . (-1.50 \"x\\t\")]" = .ok n ∧
      n.text = "(#\\space -1.5 \"x\\t\")" ∧ parse n.text = .ok n' ∧ equal n' n = true := by
  have parsed : parse "[#\\space . (-1.50 \"x\\t\")]" =
      .ok (cons ⟨0, 25⟩ (.atom ⟨1, 8⟩ (.character ' '))
        (cons ⟨11, 24⟩ (.atom ⟨12, 17⟩ (.number (Number.Decimal.toFloat ⟨true, 150, -2⟩)))
          (cons ⟨18, 24⟩ (.atom ⟨18, 23⟩ (.string "x\t")) (.nil ⟨23, 24⟩)))) := by
    decide +kernel
  obtain ⟨-, -, n', -, -, -, reparsed, same, -⟩ := text_parses_back _ _ parsed (by
    rintro x ⟨span, mem⟩
    simp only [Sexpr.preorder, List.mem_cons, List.mem_append, List.not_mem_nil, or_false,
      false_or, reduceCtorEq, Sexpr.atom.injEq, Atom.number.injEq, and_false] at mem
    rw [mem.2]
    decide +kernel)
  exact ⟨_, n', parsed, by decide +kernel, reparsed, same⟩

end Datum
end MiniScheme
