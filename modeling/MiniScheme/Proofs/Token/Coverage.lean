import MiniScheme.Proofs.Token.Munch

/-!
# Scanning accounts for every byte

The items of a text stand in it one after another, each on a stretch of whole characters, and what
is left between them is layout. All places are given by bytes of the UTF-8 form: the span of an
item, the newlines before it that make its line, the text of an error, and the gaps.
-/
namespace MiniScheme

theorem length_le_byteLength (cs : List Char) : cs.length ≤ byteLength cs := by
  induction cs with
  | nil => exact Nat.le_refl 0
  | cons c cs ih =>
    have wide := c.utf8Size_pos
    rw [List.length_cons, byteLength_cons]
    omega

/-- An offset in bytes cuts a text in one way only. -/
theorem append_inj_of_byteLength {front back front' back' : List Char}
    (split : front ++ back = front' ++ back') (same : byteLength front = byteLength front') :
    front = front' ∧ back = back' := by
  have empty (middle : List Char) (none : byteLength middle = 0) : middle = [] := by
    have least := length_le_byteLength middle
    exact List.length_eq_zero_iff.mp (by omega)
  obtain ⟨middle, rfl, rfl⟩ | ⟨middle, rfl, rfl⟩ := List.append_eq_append_iff.mp split
  · rw [byteLength_append] at same
    simp [empty middle (by omega)]
  · rw [byteLength_append] at same
    simp [empty middle (by omega)]

namespace Scan

open Lexeme (Longest declared isLayout)

/-- The bytes of a text from one offset up to another. -/
def bytesBetween (source : String) (start stop : Nat) : ByteArray :=
  source.toByteArray.extract start stop

/-- Blanks and comments, with `rest` after them. A comment goes on up to a newline or the end. -/
inductive Layout (rest : List Char) : List Char → Prop where
  | done : Layout rest []
  | blank {c : Char} {cs : List Char} (isBlank : c ∈ [' ', '\t', '\n', '\r', '\x0c'])
      (more : Layout rest cs) : Layout rest (c :: cs)
  | comment {body cs : List Char} (oneLine : '\n' ∉ body)
      (stops : cs ++ rest = [] ∨ ∃ ds, cs ++ rest = '\n' :: ds) (more : Layout rest cs) :
      Layout rest (';' :: body ++ cs)

/-- The item covers some characters of the source, counts the newlines before them for its line,
and, if it is an error, quotes them. -/
structure Placed (source : String) (item : Item) : Prop where
  nonempty : item.span.start < item.span.stop
  start : String.Pos.Raw.IsValid source ⟨item.span.start⟩
  stop : String.Pos.Raw.IsValid source ⟨item.span.stop⟩
  line : item.line = 1 + (bytesBetween source 0 item.span.start).data.count '\n'.toUInt8
  quoted : ∀ e, item = .error e → e.text.toByteArray = bytesBetween source e.span.start e.span.stop

/-- The stretches before the first item, between neighbours and after the last, from an offset up to
another. -/
def gaps (start stop : Nat) : List Item → List Span
  | [] => [⟨start, stop⟩]
  | item :: items => ⟨start, item.span.start⟩ :: gaps item.span.stop stop items

/-- The stretch is layout, in front of what follows it in the source. -/
def IsGap (source : String) (gap : Span) : Prop :=
  ∃ text rest, Layout rest text ∧ bytesBetween source gap.start gap.stop = text.utf8Encode ∧
    bytesBetween source gap.stop source.utf8ByteSize = rest.utf8Encode

/-- Every byte of the source belongs to one of the items or to the layout around them. -/
structure Accounted (source : String) (items : List Item) : Prop where
  placed : ∀ item ∈ items, Placed source item
  ordered : items.Pairwise fun a b => a.span.stop ≤ b.span.start
  gaps : ∀ gap ∈ gaps 0 source.utf8ByteSize items, IsGap source gap
  ends : items.length ≤ source.length

section Bytes

theorem size_utf8Encode (cs : List Char) : cs.utf8Encode.size = byteLength cs := by
  induction cs with
  | nil => rfl
  | cons c cs ih =>
    rw [List.utf8Encode_cons, ByteArray.size_append, ih, List.utf8Encode_singleton,
      List.size_toByteArray, String.length_utf8EncodeChar, byteLength_cons]

theorem le_of_mem_utf8EncodeChar {c : Char} {b : UInt8} (wide : 127 < c.val.toNat)
    (member : b ∈ String.utf8EncodeChar c) : 128 ≤ b.toNat := by
  have high (n : Nat) (large : 128 ≤ n) (small : n < 256) : 128 ≤ (UInt8.ofNat n).toNat := by
    rw [UInt8.toNat_ofNat', Nat.mod_eq_of_lt small]
    exact large
  revert member
  fun_cases String.utf8EncodeChar c with
  | case1 v narrow => exact absurd narrow (Nat.not_le.mpr wide)
  | case2 | case3 | case4 =>
    simp only [List.mem_cons, List.not_mem_nil, or_false]
    rintro (rfl | rfl | rfl | rfl) <;> exact high _ (by omega) (by omega)

/-- The byte of a newline stands in the encoding of a newline only. -/
theorem count_newline_utf8EncodeChar (c : Char) :
    (String.utf8EncodeChar c).count '\n'.toUInt8 = [c].count '\n' := by
  by_cases newline : c = '\n'
  · subst newline
    rfl
  · have absent : '\n'.toUInt8 ∉ String.utf8EncodeChar c := by
      intro member
      by_cases wide : 127 < c.val.toNat
      · exact absurd (le_of_mem_utf8EncodeChar wide member) (by decide)
      · have single : String.utf8EncodeChar c = [UInt8.ofNat c.val.toNat] := if_pos (by omega)
        rw [single, List.mem_singleton, ← UInt8.toNat_inj, UInt8.toNat_ofNat'] at member
        have code : c.toNat = 10 := by
          change 10 = c.val.toNat % 256 at member
          change c.val.toNat = 10
          omega
        exact newline (Char.toNat_inj.mp code)
    rw [List.count_eq_zero.mpr absent, List.count_eq_zero.mpr (by simpa using Ne.symm newline)]

theorem count_newline_utf8Encode (cs : List Char) :
    cs.utf8Encode.data.count '\n'.toUInt8 = cs.count '\n' := by
  induction cs with
  | nil => rfl
  | cons c cs ih =>
    rw [List.utf8Encode_cons, ByteArray.data_append, Array.count_append, ih,
      List.utf8Encode_singleton, List.data_toByteArray, List.count_toArray,
      count_newline_utf8EncodeChar, ← List.count_append, List.singleton_append]

theorem byteLength_lt_append {text : List Char} (before : List Char) (some : text ≠ []) :
    byteLength before < byteLength (before ++ text) := by
  obtain ⟨c, cs, rfl⟩ := List.exists_cons_of_ne_nil some
  have wide := c.utf8Size_pos
  rw [byteLength_append, byteLength_cons]
  omega

variable {source : String} {before text after : List Char}

theorem bytesBetween_of_split (split : source.toList = before ++ text ++ after) :
    bytesBetween source (byteLength before) (byteLength (before ++ text)) = text.utf8Encode := by
  have skip := ByteArray.extract_append_size_add (i := 0) (j := text.utf8Encode.size)
    (a := before.utf8Encode) (b := text.utf8Encode ++ after.utf8Encode)
  rw [Nat.add_zero, ByteArray.extract_append_eq_left rfl] at skip
  rw [bytesBetween, ← String.utf8Encode_toList, split, List.utf8Encode_append,
    List.utf8Encode_append, ByteArray.append_assoc, byteLength_append, ← size_utf8Encode,
    ← size_utf8Encode, skip]

theorem utf8ByteSize_eq (source : String) : source.utf8ByteSize = byteLength source.toList := by
  rw [← size_utf8Encode, String.utf8Encode_toList, String.utf8ByteSize]

theorem isValid_of_split (split : source.toList = before ++ after) :
    String.Pos.Raw.IsValid source ⟨byteLength before⟩ := by
  rw [String.Pos.Raw.isValid_iff_exists_append]
  refine ⟨String.ofList before, String.ofList after, ?_, ?_⟩
  · rw [← String.ofList_append, ← split, String.ofList_toList]
  · rw [String.rawEndPos, utf8ByteSize_eq, String.toList_ofList]

end Bytes

section Layout

variable {rest text gap : List Char}

theorem layout_blanks (all : ∀ c ∈ text, isLayout c) : Layout rest text := by
  induction text with
  | nil => exact .done
  | cons c cs ih =>
    rw [List.forall_mem_cons] at all
    exact .blank (of_decide_eq_true all.1) (ih all.2)

theorem Layout.append (front : Layout (text ++ rest) gap) (back : Layout rest text) :
    Layout rest (gap ++ text) := by
  induction front with
  | done => exact back
  | blank isBlank more ih => exact .blank isBlank ih
  | @comment body cs oneLine stops more ih =>
    rw [List.append_assoc]
    exact .comment oneLine (by rwa [List.append_assoc]) ih

/-- A comment that is the longest match goes up to a newline or the end. -/
theorem layout_comment (matched : text ∈ Lexeme.comment.language)
    (longest : Longest declared (text ++ rest) text.length) : Layout rest text := by
  obtain ⟨body, all, rfl⟩ := Pattern.mem_char_seq.mp matched
  rw [Pattern.mem_star_one] at all
  have oneLine : '\n' ∉ body := fun member => absurd (all _ member) (by decide)
  rw [← List.append_nil (';' :: body)]
  refine .comment oneLine ?_ .done
  rw [List.nil_append]
  cases rest with
  | nil => exact .inl rfl
  | cons d ds =>
    refine .inr ⟨ds, congrArg (· :: ds) ?_⟩
    by_contra other
    -- with the next character it would be a comment still
    have more : ∀ c ∈ body ++ [d], c ≠ '\n' := by
      simpa [or_imp, forall_and, other] using all
    have longer : ';' :: (body ++ [d]) ∈ Lexeme.comment.language :=
      Pattern.mem_char_seq.mpr ⟨body ++ [d], Pattern.mem_star_one.mpr (by simpa using more), rfl⟩
    have most := longest.greatest _ (Lexeme.mem_declared.mpr ⟨_, longer⟩) ⟨ds, by simp⟩
    simp only [List.length_cons, List.length_append, List.length_nil] at most
    omega

theorem layout_of_longest {k : Lexeme} (matched : text ∈ k.language)
    (longest : Longest declared (text ++ rest) text.length)
    (skipped : k.Skipped) : Layout rest text := by
  obtain rfl | rfl := skipped
  · exact layout_blanks (Pattern.mem_plus_one.mp matched).2
  · exact layout_comment matched longest

end Layout

section Runs

/-- A run seen by its places only: layout is passed over, and what gives an item, a token or an
error, is some text in its place. -/
inductive Tiles : List Char → List Char → List Item → Prop where
  | finish {before : List Char} : Tiles before [] []
  | skip {before text rest : List Char} {items : List Item} (layout : Layout rest text)
      (later : Tiles (before ++ text) rest items) : Tiles before (text ++ rest) items
  | take {before text rest : List Char} {item : Item} {items : List Item} (some : text ≠ [])
      (stands : Stands before text item) (later : Tiles (before ++ text) rest items) :
      Tiles before (text ++ rest) (item :: items)

variable {source : String} {before cs : List Char} {items : List Item}

theorem Munched.tiles (munched : Munched before cs items) : Tiles before cs items := by
  induction munched with
  | finish => exact .finish
  | skipped matched longest layout later ih =>
    exact .skip (layout_of_longest matched longest layout) ih
  | taken matched longest visible sameClass stands later ih =>
    refine .take ?_ stands ih
    rintro rfl
    exact Lexeme.nil_notMem_language _ matched
  | invalid none fault stands later ih => exact .take (List.cons_ne_nil _ _) stands ih

theorem placed_of_stands {text rest : List Char} {item : Item} (stands : Stands before text item)
    (some : text ≠ []) (split : source.toList = before ++ (text ++ rest)) : Placed source item := by
  have whole : source.toList = before ++ text ++ rest := by rw [split, List.append_assoc]
  constructor
  case nonempty =>
    rw [stands.span]
    exact byteLength_lt_append before some
  case start =>
    rw [stands.span]
    exact isValid_of_split split
  case stop =>
    rw [stands.span]
    exact isValid_of_split whole
  case line =>
    have front : bytesBetween source 0 (byteLength before) = before.utf8Encode :=
      @bytesBetween_of_split source [] before (text ++ rest) split
    rw [stands.span, stands.line, front, count_newline_utf8Encode]
  case quoted =>
    rintro e rfl
    have span : e.span = ⟨byteLength before, byteLength (before ++ text)⟩ := stands.span
    rw [stands.quoted e rfl, String.toByteArray_ofList, span, bytesBetween_of_split whole]

theorem Tiles.placed (tiles : Tiles before cs items) (split : source.toList = before ++ cs) :
    ∀ item ∈ items, Placed source item := by
  induction tiles with
  | finish => exact List.forall_mem_nil _
  | skip layout later ih =>
    rw [← List.append_assoc] at split
    exact ih split
  | take some stands later ih =>
    refine List.forall_mem_cons.mpr ⟨placed_of_stands stands some split, ?_⟩
    rw [← List.append_assoc] at split
    exact ih split

/-- The items of a run begin where the run does, or later. -/
theorem Tiles.start_le (tiles : Tiles before cs items) :
    ∀ item ∈ items, byteLength before ≤ item.span.start := by
  induction tiles with
  | finish => exact List.forall_mem_nil _
  | skip layout later ih =>
    intro item member
    have behind := ih item member
    rw [byteLength_append] at behind
    omega
  | take some stands later ih =>
    refine List.forall_mem_cons.mpr ⟨by rw [stands.span], fun item member => ?_⟩
    have behind := ih item member
    rw [byteLength_append] at behind
    omega

theorem Tiles.ordered (tiles : Tiles before cs items) :
    items.Pairwise fun a b => a.span.stop ≤ b.span.start := by
  induction tiles with
  | finish => exact .nil
  | skip layout later ih => exact ih
  | take some stands later ih =>
    refine .cons ?_ ih
    rw [stands.span]
    exact later.start_le

theorem Tiles.length_le (tiles : Tiles before cs items) : items.length ≤ cs.length := by
  induction tiles with
  | finish => exact Nat.le_refl _
  | skip layout later ih =>
    rw [List.length_append]
    omega
  | take some stands later ih =>
    have nonempty := List.length_pos_iff.mpr some
    rw [List.length_append, List.length_cons]
    omega

theorem isGap_of_split {start gap rest : List Char} (layout : Layout rest gap)
    (split : source.toList = start ++ gap ++ rest) :
    IsGap source ⟨byteLength start, byteLength (start ++ gap)⟩ := by
  refine ⟨gap, rest, layout, bytesBetween_of_split split, ?_⟩
  rw [utf8ByteSize_eq, split]
  exact bytesBetween_of_split (by rw [split, List.append_nil])

/-- What a run leaves between its items is layout. The run may begin inside of a gap. -/
theorem Tiles.gaps (tiles : Tiles before cs items) {start gap : List Char}
    (begun : before = start ++ gap) (split : source.toList = before ++ cs)
    (layout : Layout cs gap) :
    ∀ g ∈ gaps (byteLength start) source.utf8ByteSize items, IsGap source g := by
  induction tiles generalizing start gap with
  | finish =>
    subst begun
    refine List.forall_mem_singleton.mpr ?_
    rw [utf8ByteSize_eq, split, List.append_nil]
    exact isGap_of_split layout split
  | @skip before text rest items more later ih =>
    -- the gap that was begun goes on
    have longer : before ++ text = start ++ (gap ++ text) := by rw [begun, List.append_assoc]
    rw [← List.append_assoc] at split
    exact ih longer split (layout.append more)
  | @take before text rest item items some stands later ih =>
    refine List.forall_mem_cons.mpr ⟨?_, ?_⟩
    · rw [stands.span, begun]
      exact isGap_of_split layout (begun ▸ split)
    · rw [stands.span]
      rw [← List.append_assoc] at split
      exact ih (List.append_nil _).symm split .done

end Runs

end Scan

/-- Every byte of a source text is accounted for by the items the scanner yields. -/
theorem scan_accounted (source : String) : Scan.Accounted source (scan source) := by
  have tiles : Scan.Tiles [] source.toList (scan source) :=
    (Scan.munched_itemsOnto [] source.toList).tiles
  constructor
  case placed => exact tiles.placed rfl
  case ordered => exact tiles.ordered
  case gaps => exact tiles.gaps (List.append_nil []).symm rfl .done
  case ends => exact tiles.length_le

end MiniScheme
