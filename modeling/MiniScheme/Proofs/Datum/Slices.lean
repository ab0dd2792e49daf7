import MiniScheme.Proofs.Datum.Extents
import MiniScheme.Proofs.Datum.RoundTrip
import MiniScheme.Proofs.Token.Slice

/-!
# A datum alone

The span of a datum is where its text stands. A text is cut to the span of any datum written in it,
however deep, and what is left is read as that datum, each node as many bytes further down as stand
before it in the text. For this the grammar is moved along with the tokens (`writes_down`); that the
tokens themselves only move is `exists_slice`.
-/
namespace MiniScheme

open Grammar (Writes WritesAll Stretch InOrder bracketed ending)
open Reader (asItems)

/-- The datum with every span as many bytes further down. -/
def Datum.down (n : Nat) (d : Datum) : Datum := d.mapSpan (Span.down n)

/-! ## Moving what is written -/

section Down

variable {κ ρ : Type} {f : Span → Span} (n lines : Nat)

theorem Sexpr.span_mapSpan (t : Sexpr κ ρ) : (t.mapSpan f).span = f t.span := by
  cases t <;> rfl

theorem Sexpr.erase_mapSpan (t : Sexpr κ ρ) : (t.mapSpan f).erase = t.erase := by
  induction t with
  | pair _ _ _ _ car_ih cdr_ih => rw [mapSpan, erase, car_ih, cdr_ih, erase]
  | _ => rfl

theorem Sexpr.mapSpan_withSpan (s : Span) (t : Sexpr κ ρ) :
    (t.withSpan s).mapSpan f = (t.mapSpan f).withSpan (f s) := by
  cases t <;> rfl

theorem Span.down_merge (s t : Span) : (s.merge t).down n = (s.down n).merge (t.down n) := by
  simp only [down, merge, Nat.sub_min_sub_right, Nat.sub_max_sub_right]

theorem Datum.span_down (d : Datum) : (d.down n).span = d.span.down n :=
  Sexpr.span_mapSpan d

theorem Datum.down_ofList (ds : List Datum) (tail : Datum) :
    (ofList ds tail).down n = ofList (ds.map (down n)) (tail.down n) := by
  induction ds with
  | nil => rfl
  | cons d ds ih =>
    have moved : (ofList (d :: ds) tail).down n =
        cons ((d.span.merge (ofList ds tail).span).down n) (d.down n) ((ofList ds tail).down n) :=
      rfl
    rw [moved, Span.down_merge, ← span_down, ← span_down, ih]
    rfl

theorem Datum.down_quoted (mark : Span) (d : Datum) :
    (quoted mark d).down n = quoted (mark.down n) (d.down n) := by
  have whole : (mark.merge d.span).down n = (mark.down n).merge (d.down n).span := by
    rw [Span.down_merge, span_down]
  simp only [quoted, ← whole]
  rfl

namespace Grammar

theorem down_ending (c : Token) : (ending c).down n = ending (c.down n lines) := by
  have start : c.span.stop - 1 - n = c.span.stop - n - 1 := Nat.sub_right_comm ..
  simp only [ending, Datum.down, Sexpr.mapSpan, Span.down, Token.down, start]

theorem down_bracketed (o c : Token) (ds : List Datum) (tail : Datum) :
    (bracketed o c ds tail).down n =
      bracketed (o.down n lines) (c.down n lines) (ds.map (Datum.down n)) (tail.down n) := by
  rw [bracketed, Datum.down, Sexpr.mapSpan_withSpan, ← Datum.down, Datum.down_ofList]
  rfl

mutual

/-- Tokens further down write the datum further down. -/
theorem writes_down {p : List Token} {d : Datum} {k : Nat} {parts : List Datum} :
    Writes p d k parts →
      Writes (p.map (Token.down n lines)) (d.down n) k (parts.map (Datum.down n))
  | .atom isAtom => .atom isAtom
  | .list (o := o) (c := c) opens inner closes => by
    have moved := Writes.list (o := o.down n lines) (c := c.down n lines) opens
      (writesAll_down inner) closes
    rw [← down_ending, ← down_bracketed] at moved
    simpa using moved
  | @Writes.dotted o t c _ _ _ ds _ _ _ _ _ opens inner nonempty isDot last closes => by
    have some : ds.map (Datum.down n) ≠ [] := by simpa using nonempty
    have moved := Writes.dotted (o := o.down n lines) (t := t.down n lines)
      (c := c.down n lines) opens (writesAll_down inner) some isDot (writes_down last) closes
    rw [← down_bracketed] at moved
    simpa using moved
  | .quote (m := m) marks inner => by
    have moved := Writes.quote (m := m.down n lines) marks (writes_down inner)
    rw [Token.down, ← Datum.down_quoted] at moved
    exact moved

theorem writesAll_down {p : List Token} {ds : List Datum} {k : Nat} {parts : List Datum} :
    WritesAll p ds k parts → WritesAll (p.map (Token.down n lines)) (ds.map (Datum.down n)) k
      (parts.map (Datum.down n))
  | .nil => .nil
  | .cons head tail => by
    have moved := WritesAll.cons (writes_down head) (writesAll_down tail)
    simpa using moved

end

end Grammar

end Down

/-! ## Cutting a text -/

section Cut

variable {source : String} {before text after : List Char}

theorem Span.lies_of_split (split : source.toList = before ++ text ++ after) :
    Span.Lies source ⟨byteLength before, byteLength (before ++ text)⟩ := by
  have start := Scan.isValid_of_split (split.trans (List.append_assoc ..))
  refine ⟨?_, ?_, start, Scan.isValid_of_split split⟩
  · rw [byteLength_append]
    exact Nat.le_add_right ..
  · rw [Scan.utf8ByteSize_eq, split, byteLength_append (before ++ text)]
    exact Nat.le_add_right ..

theorem extract_of_split (split : source.toList = before ++ text ++ after) :
    String.Pos.Raw.extract source ⟨byteLength before⟩ ⟨byteLength (before ++ text)⟩ =
      String.ofList text := by
  have utf8Len (cs : List Char) : String.utf8Len cs = byteLength cs := by
    rw [← String.toList_ofList (l := cs), String.utf8Len_toList, Scan.utf8ByteSize_eq]
  have extracted := String.extract_of_valid before text after
  rwa [← split, String.ofList_toList, utf8Len, utf8Len, ← byteLength_append] at extracted

end Cut

variable {source : String} {tokens : List Token} {d : Datum} {k : Nat}

/-- Tokens of a text stand in its order. -/
theorem inOrder_of_scan {p : List Token} (sub : (asItems p).Sublist (scan source)) :
    InOrder p := by
  have accounted := scan_accounted source
  refine ⟨fun t member => ?_, List.pairwise_map.mp (accounted.ordered.sublist sub)⟩
  exact (accounted.placed (.ok t) (sub.subset (List.mem_map_of_mem member))).nonempty

/-- Every pair of what is read anywhere in a text covers its parts. -/
theorem nested_of_read {items rest : List Item} {limit : Nat} (suffix : items <:+ scan source)
    (reads : Reader.read limit items = (.ok d, rest)) : d.Nested := by
  obtain ⟨p, k, parts, rfl, writes, -⟩ := Reader.writes_of_read reads
  have sub := (List.sublist_append_left (asItems p) rest).trans suffix.sublist
  exact Grammar.nested_of_writes writes (inOrder_of_scan sub)

/-- The span of the datum is a stretch of the text with all its nodes in it, and the text there is
read as the same datum, moved to the front. -/
structure Datum.ReadsAlone (source : String) (d : Datum) : Prop where
  lies : d.span.Lies source
  holds : ∀ node ∈ d.preorder, d.span.Holds node.span
  parses : parse (String.Pos.Raw.extract source ⟨d.span.start⟩ ⟨d.span.stop⟩) =
    .ok (d.down d.span.start)
  same : equal (d.down d.span.start) d = true

theorem readsAlone_of_stretch (scanned : scan source = asItems tokens)
    (stretch : Stretch tokens k d) (fits : k ≤ defaultMaxDepth) : d.ReadsAlone source := by
  obtain ⟨before, q, after, j, parts, rfl, writes, shallow⟩ := stretch
  rw [Reader.asItems_append, Reader.asItems_append] at scanned
  have inOrder : InOrder q := by
    apply inOrder_of_scan
    rw [scanned]
    exact (List.sublist_append_left ..).trans (List.sublist_append_right ..)
  obtain ⟨⟨first, rest, begins, start⟩, ⟨most, last, ends, stop⟩⟩ :=
    Grammar.covers_of_writes writes inOrder
  have firstItem : (asItems q).head? = some (.ok first) := by simp [begins]
  have lastItem : (asItems q).getLast? = some (.ok last) := by simp [ends, asItems]
  obtain ⟨front, text, behind, lines, split, startFirst, stopLast, alone⟩ :=
    exists_slice scanned firstItem lastItem
  have startSpan : d.span.start = byteLength front := start.symm.trans startFirst
  have stopSpan : d.span.stop = byteLength (front ++ text) := stop.symm.trans stopLast
  have moved := Grammar.writes_down (byteLength front) lines writes
  have scannedAlone : scan (String.ofList text) =
      asItems (q.map (Token.down (byteLength front) lines)) := by
    rw [alone, asItems, asItems, List.map_map, List.map_map]
    rfl
  have read := Reader.read_of_writes [] moved (shallow.trans fits)
  rw [List.append_nil, ← scannedAlone] at read
  have lies := Span.lies_of_split split
  rw [← startSpan, ← stopSpan] at lies
  have selfEqual : ∀ a, Sexpr.Occurs a d → a.equal a := by
    intro a occurs
    apply Datum.equal_self_of_spelled scannedAlone
    apply Datum.spelled_of_derives (Grammar.derives_of_writes moved)
    rw [Datum.down, Sexpr.erase_mapSpan]
    exact (Datum.occurs_erase a d).mpr occurs
  refine ⟨lies, (Grammar.nested_of_writes writes inOrder).holds, ?_, ?_⟩
  · rw [startSpan, stopSpan, extract_of_split split, Datum.parse_eq_ok_iff]
    exact read
  · exact Datum.equal_of_erase_eq (Sexpr.erase_mapSpan d) selfEqual

/-- Spans delimit what was written. Of a text that is read to its end, the tokens say in one way
which data are written in it: the data at the top, the elements of each list, what follows a dot and
what follows a quote mark. Each of them is read again, moved to the front, from its span alone. In
every tree that is read, each pair covers its two parts. -/
theorem Datum.spans_delimit (source : String) :
    (∀ nodes, parseAll source = .ok nodes →
      ∃ tokens, scan source = asItems tokens ∧ (∃ k parts, WritesAll tokens nodes k parts) ∧
        ∀ k parts, WritesAll tokens nodes k parts → ∀ d ∈ parts, d.ReadsAlone source) ∧
    ∀ items rest limit d, items <:+ scan source → Reader.read limit items = (.ok d, rest) →
      d.Nested := by
  refine ⟨fun nodes parsed => ?_, fun _ _ _ _ suffix reads => nested_of_read suffix reads⟩
  obtain ⟨tokens, k, parts, scanned, writes, fits⟩ :=
    Reader.writesAll_of_readAll (Reader.eq_map_ok_of_mapM parsed)
  refine ⟨tokens, scanned, ⟨k, parts, writes⟩, fun k' parts' writes' d member => ?_⟩
  have same : tokens ++ [] = tokens ++ [] := rfl
  obtain ⟨-, -, rfl, rfl⟩ := Grammar.writesAll_unique writes writes' (by simp) (by simp) same
  exact readsAlone_of_stretch scanned (Grammar.exists_stretchAll writes d member) fits

/-- A list that is written after a dot, in a quotation behind a comment. -/
theorem Datum.spans_delimit_dotted :
    let source := "; é\n'[a . (#t)]"
    let tail := cons ⟨11, 15⟩ (.atom ⟨12, 14⟩ (.boolean true)) (.nil ⟨14, 15⟩)
    let node := quoted ⟨5, 6⟩ (cons ⟨6, 16⟩ (.atom ⟨7, 8⟩ (.symbol "a")) tail)
    parseAll source = .ok [node] ∧ tail.ReadsAlone source ∧ node.Nested := by
  intro source tail node
  have parsed : parseAll source = .ok [node] := by decide +kernel
  have read : Reader.read defaultMaxDepth (scan source) = (.ok node, []) := by decide +kernel
  have items : scan source = asItems [⟨.quote, ⟨5, 6⟩, 2⟩, ⟨.opener .square, ⟨6, 7⟩, 2⟩,
      ⟨.atom (.symbol "a"), ⟨7, 8⟩, 2⟩, ⟨.dot, ⟨9, 10⟩, 2⟩, ⟨.opener .round, ⟨11, 12⟩, 2⟩,
      ⟨.atom (.boolean true), ⟨12, 14⟩, 2⟩, ⟨.closer .round, ⟨14, 15⟩, 2⟩,
      ⟨.closer .square, ⟨15, 16⟩, 2⟩] := by decide +kernel
  obtain ⟨tokens, scanned, -, alone⟩ := (spans_delimit source).1 [node] parsed
  obtain rfl := Reader.asItems_injective (scanned.symm.trans items)
  have list := Writes.list (o := ⟨.opener .round, ⟨11, 12⟩, 2⟩)
    (c := ⟨.closer .round, ⟨14, 15⟩, 2⟩) rfl
    (.cons (.atom (t := ⟨.atom (.boolean true), ⟨12, 14⟩, 2⟩) rfl) .nil) rfl
  have dotted := Writes.dotted (o := ⟨.opener .square, ⟨6, 7⟩, 2⟩) (t := ⟨.dot, ⟨9, 10⟩, 2⟩)
    (c := ⟨.closer .square, ⟨15, 16⟩, 2⟩) rfl
    (.cons (.atom (t := ⟨.atom (.symbol "a"), ⟨7, 8⟩, 2⟩) rfl) .nil) (List.cons_ne_nil _ _) rfl
    list rfl
  have written := WritesAll.cons (Writes.quote (m := ⟨.quote, ⟨5, 6⟩, 2⟩) rfl dotted) .nil
  refine ⟨parsed, alone _ _ written tail ?_, ?_⟩
  · simp [tail, bracketed, ending, ofList, Sexpr.withSpan]
  · exact (spans_delimit source).2 _ [] defaultMaxDepth node List.suffix_rfl read

end MiniScheme
