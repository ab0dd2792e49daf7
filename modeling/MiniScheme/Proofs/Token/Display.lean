import MiniScheme.Proofs.Token.Decoding

/-!
# What a token shows, scanned again

A token is shown as source text. Every kind of token but two is read back from what it shows: an
infinite number is shown by a name, and a string is shown with escapes for the characters that would
not be seen, most of which the scanner does not know. So a string is read back just if each of its
hidden characters is one of the three that have an escape in source text.
-/
namespace MiniScheme

open Lexeme (Legible)

/-- The character is shown in a string as it may be written there: it is seen, or it is one of the
three that have escapes. -/
def Text.Writable (c : Char) : Prop := isHidden c → c = '\n' ∨ c = '\r' ∨ c = '\t'

/-! ## Strings as they are shown -/

theorem exists_digit_of_mem_toDigits {n : Nat} {d : Char} (member : d ∈ Nat.toDigits 16 n) :
    ∃ k < 16, d = k.digitChar := by
  induction n using Nat.strongRecOn with
  | _ n ih =>
    rw [Nat.toDigits_eq_if (by decide)] at member
    split at member
    · next small => exact ⟨n, small, List.mem_singleton.mp member⟩
    · next large =>
      obtain front | last := List.mem_append.mp member
      · exact ih (n / 16) (by omega) front
      · exact ⟨n % 16, Nat.mod_lt n (by decide), List.mem_singleton.mp last⟩

namespace Piece

theorem fits_plain_code {n : Nat} :
    ∀ piece ∈ '\x7b' :: Nat.toDigits 16 n ++ ['\x7d'], (plain piece).Fits := by
  have digits : ∀ k < 16, k.digitChar ≠ '"' ∧ k.digitChar ≠ '\\' := by decide
  intro d member
  obtain rfl | inside | rfl : d = '\x7b' ∨ d ∈ Nat.toDigits 16 n ∨ d = '\x7d' := by
    simpa using member
  · simp [Fits]
  · obtain ⟨k, small, rfl⟩ := exists_digit_of_mem_toDigits inside
    exact digits k small
  · simp [Fits]

/-- How a character is shown in a string: as one piece that stands for it if it is writable, or else
beginning with an escape that stands for nothing. -/
theorem visibleEscape_cases (c : Char) :
    (Text.Writable c ∧ ∃ piece, Text.visibleEscape c = text piece ∧ piece.Fits ∧
        piece.value? = some c) ∨
      (¬ Text.Writable c ∧ ∃ e more, Text.visibleEscape c = (escape e :: more).flatMap text ∧
        (∀ piece ∈ escape e :: more, piece.Fits) ∧ (escape e).value? = none) := by
  have seen : Text.isHidden '"' = false ∧ Text.isHidden '\\' = false := by decide +kernel
  unfold Text.visibleEscape
  split
  · have hidden : Text.isHidden '\x00' := by decide +kernel
    refine .inr ⟨fun writable => ?_, '0', [], rfl, by simp [Fits], rfl⟩
    exact absurd (writable hidden) (by decide)
  · exact .inl ⟨by simp [Text.Writable, seen], escape '"', rfl, by simp [Fits], rfl⟩
  · exact .inl ⟨by simp [Text.Writable, seen], escape '\\', rfl, by simp [Fits], rfl⟩
  · exact .inl ⟨by simp [Text.Writable], escape 'n', rfl, by simp [Fits], rfl⟩
  · exact .inl ⟨by simp [Text.Writable], escape 'r', rfl, by simp [Fits], rfl⟩
  · exact .inl ⟨by simp [Text.Writable], escape 't', rfl, by simp [Fits], rfl⟩
  · next notQuote notBackslash notNewline notReturn notTab =>
    split
    · next hidden =>
      refine .inr ⟨fun writable => ?_, 'u',
        ('\x7b' :: Nat.toDigits 16 c.toNat ++ ['\x7d']).map plain, ?_, ?_, rfl⟩
      · obtain same | same | same := writable hidden
        · exact notNewline same
        · exact notReturn same
        · exact notTab same
      · have spelled (cs : List Char) : (cs.map plain).flatMap text = cs := by
          rw [List.flatMap_map]
          exact List.flatMap_singleton' cs
        rw [List.flatMap_cons, spelled]
        rfl
      · refine List.forall_mem_cons.mpr ⟨by simp [Fits], ?_⟩
        exact List.forall_mem_map.mpr fits_plain_code
    · next notHidden =>
      exact .inl ⟨fun hidden => absurd hidden notHidden, plain c, rfl,
        ⟨notQuote, notBackslash⟩, rfl⟩

/-- A string as it is shown: in pieces that stand for its characters if all are writable, or else
with an unknown escape among them. -/
theorem exists_shown (cs : List Char) :
    ∃ pieces, cs.flatMap Text.visibleEscape = pieces.flatMap text ∧
      (∀ piece ∈ pieces, Fits piece) ∧
        ((∀ c ∈ cs, Text.Writable c) ∧ pieces.mapM value? = some cs ∨
          (¬ ∀ c ∈ cs, Text.Writable c) ∧ ∃ e, FirstUnknown pieces e) := by
  induction cs with
  | nil => exact ⟨[], rfl, by simp, .inl ⟨by simp, rfl⟩⟩
  | cons c cs ih =>
    obtain ⟨pieces, shown, fits, after⟩ := ih
    obtain ⟨writable, piece, here, first, value⟩ | ⟨refused, e, more, here, first, unknown⟩ :=
      visibleEscape_cases c
    · refine ⟨piece :: pieces, ?_, List.forall_mem_cons.mpr ⟨first, fits⟩, ?_⟩
      · rw [List.flatMap_cons, List.flatMap_cons, here, shown]
      · obtain ⟨all, values⟩ | ⟨some, e, unknown⟩ := after
        · refine .inl ⟨List.forall_mem_cons.mpr ⟨writable, all⟩, ?_⟩
          rw [List.mapM_cons, value, values]
          rfl
        · refine .inr ⟨fun all => some (List.forall_mem_cons.mp all).2, e, ?_⟩
          exact (firstUnknown_cons value).mpr unknown
    · refine ⟨escape e :: (more ++ pieces), ?_, ?_, .inr ⟨fun all => ?_, e, ?_⟩⟩
      · rw [List.flatMap_cons, here, shown, ← List.cons_append, List.flatMap_append]
      · rw [← List.cons_append]
        exact List.forall_mem_append.mpr ⟨first, fits⟩
      · exact refused (List.forall_mem_cons.mp all).1
      · exact (firstUnknown_here unknown).mpr rfl

end Piece

namespace Scan

/-- A string literal alone is one lexeme. -/
theorem scan_spelled {text : List Char} {pieces : List Piece} {closed : Bool}
    (spells : SpellsString text pieces closed) :
    ∃ item, scan (String.ofList text) = [item] ∧ YieldsString pieces closed item.yielded := by
  obtain ⟨fits, rfl⟩ := spells
  have whole : Lexeme.stringLength (Piece.join pieces closed) =
      (Piece.join pieces closed).length := by
    have longest := Lexeme.longest_stringTail (Piece.join pieces closed)
    have inside := (Lexeme.classify_fits '"' (Piece.join pieces closed)).inside
    refine Nat.le_antisymm inside (longest.greatest _ ?_ List.prefix_rfl)
    exact Piece.mem_stringTail_iff.mpr ⟨pieces, closed, fits, rfl⟩
  have found : Lexeme.classify '"' (Piece.join pieces closed) =
      (.string, (Piece.join pieces closed).length) := by
    rw [← whole]
    rfl
  obtain ⟨skipped, -⟩ | ⟨-, item, given, -, -⟩ :=
    item?_advance [] ('"' :: Piece.join pieces closed) .string
  · exact absurd skipped (by simp [Lexeme.Skipped])
  · refine ⟨item, ?_, ?_⟩
    · rw [scan, items, String.toList_ofList, itemsOnto_cons, found, List.take_length,
        List.drop_length, itemsOnto]
      exact congrArg (·.toList ++ []) given
    · rw [yielded_of_item? given]
      exact Piece.yieldsString_decode fits

end Scan
/-! ## Tokens -/

/-- A legible text alone is one token. -/
theorem tokenize_legible {text : List Char} {kind : Token.Kind} (legible : Legible text kind) :
    ∃ t, tokenize (String.ofList text) = .ok [t] ∧ t.kind = kind := by
  obtain ⟨t, q, same, items⟩ := Scan.itemsOnto_legible .first legible .stop
  refine ⟨t, ?_, same⟩
  rw [tokenize, scan, Scan.items, String.toList_ofList, ← List.append_nil text, items,
    Scan.itemsOnto]
  rfl

/-- A double that was read is infinite or finite. -/
theorem Number.isFinite_toFloat {d : Number.Decimal} (bounded : ¬ d.toFloat.isInf) :
    d.toFloat.isFinite := by
  have number : ¬ d.toFloat.isNaN := by
    rw [Float.isNaN_eq_decide_eq_nan, decide_eq_true_eq]
    exact Number.ofParts_ne_nan d.negative (Number.magnitudeBits_le d.coefficient d.exponent)
  unfold Float.isInf Float.Model.isInf at bounded
  unfold Float.isNaN Float.Model.isNaN at number
  unfold Float.isFinite Float.Model.isFinite
  generalize d.toFloat.toModel.unpack = parts at bounded number ⊢
  cases parts with
  | notANumber => exact absurd rfl number
  | infinity => exact absurd rfl bounded
  | zero | finite => rfl

/-- A token that was scanned is legible as it is shown, strings and infinite numbers apart. -/
theorem Token.legible_text {source : String} {t : Token} (member : .ok t ∈ scan source)
    (bounded : ∀ x, t.kind = .atom (.number x) → ¬ x.isInf)
    (noString : ∀ s, t.kind ≠ .atom (.string s)) : ∃ text, t.text = String.ofList text ∧
      Legible text t.kind := by
  obtain ⟨c, cs, scanned⟩ := Scan.exists_lexeme_of_mem member
  unfold Token.text
  cases kind : t.kind with
  | opener b =>
    refine ⟨[b.opening], rfl, ?_⟩
    cases b
    · exact .intro (fun _ _ => rfl) rfl
    · exact .intro (fun _ _ => rfl) rfl
  | closer b =>
    refine ⟨[b.closing], rfl, ?_⟩
    cases b
    · exact .intro (fun _ _ => rfl) rfl
    · exact .intro (fun _ _ => rfl) rfl
  | dot => exact ⟨['.'], rfl, Lexeme.legible_dot⟩
  | quote => exact ⟨['\x27'], rfl, .intro (fun _ _ => rfl) rfl⟩
  | atom a =>
    rw [kind] at scanned
    have legible : Legible a.chars (.atom a) := by
      refine Lexeme.legible_of_scanned scanned ?_
      rintro x rfl
      obtain ⟨d, rfl⟩ := Lexeme.exists_decimal_of_decode scanned
      exact Number.isFinite_toFloat (bounded _ kind)
    refine ⟨a.chars, ?_, legible⟩
    cases a with
    | string s => exact absurd kind (noString s)
    | boolean b => cases b <;> rfl
    | _ => rfl

/-- A token other than an infinite number is read back from its text, as one token of the same kind
and value, if and only if it is no string with a character that is not writable. -/
theorem Token.text_tokenizes {source : String} {t : Token} (member : .ok t ∈ scan source)
    (bounded : ∀ x, t.kind = .atom (.number x) → ¬ x.isInf) :
    (∃ t', tokenize t.text = .ok [t'] ∧ t'.kind = t.kind) ↔
      ∀ s, t.kind = .atom (.string s) → ∀ c ∈ s.toList, Text.Writable c := by
  by_cases string : ∃ s, t.kind = .atom (.string s)
  · obtain ⟨s, kind⟩ := string
    obtain ⟨pieces, shown, fits, after⟩ := Piece.exists_shown s.toList
    have spells : SpellsString (Text.quoted Text.visibleEscape s.toList) pieces true :=
      ⟨fits, by rw [Text.quoted, shown]; rfl⟩
    obtain ⟨item, scanned, yields⟩ := Scan.scan_spelled spells
    have text : t.text = String.ofList (Text.quoted Text.visibleEscape s.toList) := by
      rw [Token.text, kind]
      rfl
    rw [text, tokenize, scanned, kind]
    constructor
    · rintro ⟨t', tokens, same⟩ _ ⟨⟩
      obtain ⟨writable, -⟩ | ⟨-, e, unknown⟩ := after
      · exact writable
      · have refused := (yields.unknown e).mpr unknown
        cases item with
        | ok => cases refused
        | error => cases tokens
    · intro writable
      obtain ⟨-, values⟩ | ⟨refused, -⟩ := after
      · have read := (yields.value s).mpr ⟨rfl, values⟩
        cases item with
        | ok t' => exact ⟨t', rfl, Except.ok.inj read⟩
        | error => cases read
      · exact absurd (writable s rfl) refused
  · have noString (s : String) : t.kind ≠ .atom (.string s) := fun same => string ⟨s, same⟩
    obtain ⟨text, shown, legible⟩ := legible_text member bounded noString
    rw [shown]
    exact ⟨fun _ s same => absurd same (noString s), fun _ => tokenize_legible legible⟩

theorem Token.text_tokenizes_escaped :
    .ok ⟨.atom (.string "é\n\\"), ⟨1, 9⟩, 1⟩ ∈ scan "(\"é\\n\\\\\" e)" ∧
      (∀ c ∈ "é\n\\".toList, Text.Writable c) ∧
        ∃ t, tokenize (Token.text ⟨.atom (.string "é\n\\"), ⟨1, 9⟩, 1⟩) = .ok [t] ∧
          t.kind = .atom (.string "é\n\\") := by
  have member : .ok ⟨.atom (.string "é\n\\"), ⟨1, 9⟩, 1⟩ ∈ scan "(\"é\\n\\\\\" e)" := by
    have items : scan "(\"é\\n\\\\\" e)" =
        [.ok ⟨.opener .round, ⟨0, 1⟩, 1⟩, .ok ⟨.atom (.string "é\n\\"), ⟨1, 9⟩, 1⟩,
          .ok ⟨.atom (.symbol "e"), ⟨10, 11⟩, 1⟩, .ok ⟨.closer .round, ⟨11, 12⟩, 1⟩] := by
      decide +kernel
    rw [items]
    exact List.mem_cons_of_mem _ List.mem_cons_self
  have writable : ∀ c ∈ "é\n\\".toList, Text.Writable c := by
    have seen : Text.isHidden 'é' = false ∧ Text.isHidden '\\' = false := by decide +kernel
    simp [Text.Writable, seen]
  refine ⟨member, writable, (Token.text_tokenizes member nofun).mpr ?_⟩
  rintro _ ⟨⟩
  exact writable

/-- The null character is shown by an escape that the scanner does not know. -/
theorem Token.text_refused :
    ¬ ∀ (source : String) (t : Token), .ok t ∈ scan source →
      (∀ x, t.kind = .atom (.number x) → ¬ x.isInf) →
        ∃ t', tokenize t.text = .ok [t'] ∧ t'.kind = t.kind := by
  intro readBack
  have member : .ok ⟨.atom (.string "\x00"), ⟨0, 3⟩, 1⟩ ∈ scan "\"\x00\"" := by
    have items : scan "\"\x00\"" = [.ok ⟨.atom (.string "\x00"), ⟨0, 3⟩, 1⟩] := by decide +kernel
    rw [items]
    exact List.mem_singleton_self _
  obtain ⟨t', tokens, -⟩ := readBack _ _ member nofun
  have refused : tokenize (Token.text ⟨.atom (.string "\x00"), ⟨0, 3⟩, 1⟩) =
      .error ⟨.unknownEscape '0', ⟨0, 4⟩, 1, "\"\\0\""⟩ := by decide +kernel
  rw [refused] at tokens
  cases tokens

end MiniScheme
