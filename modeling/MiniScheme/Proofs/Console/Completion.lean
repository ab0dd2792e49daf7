import MiniScheme.Console.Completion
import MiniScheme.Proofs.Session.Names
import MiniScheme.Proofs.Token.Growth

/-!
# What a completed name is read as

The candidates at a cursor are what is missing of names in the global frame and of keywords. Each
such name is a symbol (`MiniScheme.Proofs.Session.Names`), so a candidate put behind the cursor
makes the symbol there longer and leaves all tokens before it, with one exception
(`MiniScheme.Proofs.Token.Growth`): a number without an exponent that touches the symbol takes the
completed name as its exponent, if the name begins like one.
-/
namespace MiniScheme

namespace Text

variable {names : List String}

theorem nodup_eraseDups (names : List String) : names.eraseDups.Nodup := by
  induction length : names.length using Nat.strongRecOn generalizing names with
  | _ n ih =>
    cases names with
    | nil => simp
    | cons name names =>
      rw [List.eraseDups_cons, List.nodup_cons, List.mem_eraseDups]
      refine ⟨by simp, ih _ ?_ _ rfl⟩
      rw [← length, List.length_cons]
      exact Nat.lt_succ_of_le (List.length_filter_le _ _)

theorem mem_sorted {name : String} : name ∈ sorted names ↔ name ∈ names := by
  rw [sorted, List.mem_mergeSort, List.mem_eraseDups]

theorem sorted_increasing (names : List String) : (sorted names).Pairwise (· < ·) := by
  have ordered : (sorted names).Pairwise fun a b => decide (a ≤ b) = true := by
    refine List.pairwise_mergeSort (fun a b c first second => ?_) (fun a b => ?_) _
    · simp only [decide_eq_true_eq] at first second ⊢
      exact first.trans second
    · simpa using le_total a b
  have distinct : (sorted names).Nodup :=
    (List.mergeSort_perm _ _).nodup_iff.mpr (nodup_eraseDups names)
  refine (ordered.and distinct).imp fun {a b} both => ?_
  exact lt_of_le_of_ne (of_decide_eq_true both.1) both.2

end Text

namespace Completion

open Lexeme (IsSymbol isSymbol_keyword)
open Reader (asItems)
open Scan (TakesExponent symbolItem)

variable {s : Session} {names : List String} {name beginning c : String} {cs front back : List Char}

theorem before_byteLength (front back : List Char) :
    before (byteLength front) (front ++ back) = front := by
  induction front with
  | nil =>
    cases back with
    | nil => rfl
    | cons c cs => exact if_neg (Nat.not_le.mpr c.utf8Size_pos)
  | cons c front ih =>
    rw [List.cons_append, before, byteLength_cons, if_pos (Nat.le_add_right ..),
      Nat.add_sub_cancel_left, ih]

theorem candidates_between (s : Session) (front back : List Char) :
    candidates s (String.ofList (front ++ back)) (byteLength front) =
      (touched? front).elim [] (suffixes (s.names ++ Keyword.all.map Keyword.name)) := by
  rw [candidates, String.toList_ofList, before_byteLength]
  cases touched? front <;> rfl

/-- A candidate is what a name has after its beginning, if it has anything. -/
theorem mem_suffixes : c ∈ suffixes names beginning ↔ c ≠ "" ∧ beginning ++ c ∈ names := by
  rw [suffixes, Text.mem_sorted, List.mem_filterMap]
  constructor
  · rintro ⟨name, member, given⟩
    split at given
    · next d ds missing =>
      cases given
      have whole : name = beginning ++ String.ofList (d :: ds) := by
        rw [← String.toList_inj, String.toList_append, String.toList_ofList]
        exact suffix?_eq_some_iff.mp missing
      exact ⟨by simp, whole ▸ member⟩
    · cases given
  · rintro ⟨wide, member⟩
    obtain ⟨d, ds, chars⟩ := List.exists_cons_of_ne_nil (mt String.toList_eq_nil_iff.mp wide)
    refine ⟨beginning ++ c, member, ?_⟩
    have missing : suffix? beginning.toList (beginning ++ c).toList = some (d :: ds) := by
      rw [suffix?_eq_some_iff, String.toList_append, chars]
    rw [missing]
    change some (String.ofList (d :: ds)) = some c
    rw [← chars, String.ofList_toList]

theorem touched?_eq_some_iff : touched? cs = some name ↔ ∃ tokens span line,
    tokenize (String.ofList cs) = .ok (tokens ++ [⟨.atom (.symbol name), span, line⟩]) ∧
      span.stop = byteLength cs := by
  rw [tokenize, scan, String.toList_ofList]
  constructor
  · intro touched
    unfold touched? at touched
    split at touched
    · cases touched
    · next tokens success =>
      split at touched
      · next name span line last =>
        split at touched
        · next stop =>
          cases touched
          obtain ⟨tokens, rfl⟩ := List.getLast?_eq_some_iff.mp last
          exact ⟨tokens, span, line, success, stop⟩
        · cases touched
      · cases touched
  · rintro ⟨tokens, span, line, success, stop⟩
    unfold touched?
    rw [success]
    simp [stop]

/-- A symbol touches the end of a text and is the beginning of a longer symbol. What is missing, put
behind the text, makes the last token that longer symbol and leaves the others, just if none of them
takes an exponent. -/
theorem tokenize_completed {tokens : List Token} {span : Span} {line : Nat}
    (success : tokenize (String.ofList cs) =
      .ok (tokens ++ [⟨.atom (.symbol name), span, line⟩]))
    (stop : span.stop = byteLength cs) (long : IsSymbol (name ++ c)) :
    ∃ head, cs = head ++ name.toList ∧ span.start = byteLength head ∧
      (tokenize (String.ofList cs ++ c) = .ok (tokens ++
          [⟨.atom (.symbol (name ++ c)), ⟨span.start, span.stop + byteLength c.toList⟩, line⟩]) ↔
        ¬ TakesExponent .first (asItems tokens) head (name ++ c).toList) := by
  have scanned := Datum.scan_of_tokenize success
  rw [Reader.asItems_append, scan, String.toList_ofList] at scanned
  obtain ⟨head, v, rfl, short, runs, item⟩ := Scan.exists_last_symbol scanned
    (by rw [stop]; exact (Nat.zero_add _).symm)
  cases item
  have chars : (String.ofList v ++ c).toList = v ++ c.toList := by
    rw [String.toList_append, String.toList_ofList]
  have items : scan (String.ofList (head ++ v) ++ c) = Scan.items (head ++ (v ++ c.toList)) := by
    rw [scan, String.toList_append, String.toList_ofList, List.append_assoc]
  have completed : symbolItem (Position.first.advance head) (v ++ c.toList) =
      .ok ⟨.atom (.symbol (String.ofList v ++ c)), ⟨(Position.first.advance head).offset,
        ((Position.first.advance head).advance v).offset + byteLength c.toList⟩,
        (Position.first.advance head).line⟩ := by
    rw [symbolItem, ← chars, String.ofList_toList, chars, Position.advance_append]
    rfl
  rw [IsSymbol, chars] at long
  refine ⟨head, by rw [String.toList_ofList], Nat.zero_add _, ?_⟩
  rw [chars]
  constructor
  · intro success taken
    have scanned := Datum.scan_of_tokenize success
    rw [items, Reader.asItems_append] at scanned
    exact taken.items_ne _ scanned
  · intro untaken
    have clean : ∀ e, .error e ∉ asItems tokens := by simp [asItems]
    have scanned := (runs.grown clean short long untaken).itemsOnto
    rw [Scan.itemsOnto_symbol long, completed] at scanned
    apply Datum.tokenize_of_scan
    rw [items, Reader.asItems_append]
    exact scanned

/-- Completion in a session that was fed texts, at a cursor between the characters `front` and
`back` of a line. The candidates increase strictly. Each is what a name of the global frame or a
keyword has after the symbol that the cursor touches, and whatever such a name has there is one. To
accept it makes the last token that name and changes no other token, just if the name is not the
exponent of a number that touches the symbol. -/
theorem candidates_complete {maxDepth fuel : Nat} (fed : Session.Fed maxDepth fuel s)
    (front back : List Char) :
    let found := candidates s (String.ofList (front ++ back)) (byteLength front)
    found.Pairwise (· < ·) ∧
    (∀ tokens name span line c, c ≠ "" →
      tokenize (String.ofList front) = .ok (tokens ++ [⟨.atom (.symbol name), span, line⟩]) →
      span.stop = byteLength front → (name ++ c ∈ s.names ∨ ∃ k : Keyword, k.name = name ++ c) →
      c ∈ found) ∧
    ∀ c ∈ found, c ≠ "" ∧ ∃ tokens name span line head,
      front = head ++ name.toList ∧ span = ⟨byteLength head, byteLength front⟩ ∧
      tokenize (String.ofList front) = .ok (tokens ++ [⟨.atom (.symbol name), span, line⟩]) ∧
      (name ++ c ∈ s.names ∨ ∃ k : Keyword, k.name = name ++ c) ∧
      (tokenize (String.ofList front ++ c) = .ok (tokens ++
          [⟨.atom (.symbol (name ++ c)), ⟨span.start, span.stop + byteLength c.toList⟩, line⟩]) ↔
        ¬ TakesExponent .first (asItems tokens) head (name ++ c).toList) := by
  intro found
  have places : found =
      (touched? front).elim [] (suffixes (s.names ++ Keyword.all.map Keyword.name)) :=
    candidates_between s front back
  have known_iff (name : String) : name ∈ s.names ++ Keyword.all.map Keyword.name ↔
      name ∈ s.names ∨ ∃ k : Keyword, k.name = name := by
    simp [Keyword.mem_all]
  refine ⟨?_, ?_, ?_⟩
  · rw [places]
    cases touched? front with
    | none => exact .nil
    | some name => exact Text.sorted_increasing _
  · intro tokens name span line c wide success stop named
    rw [places, touched?_eq_some_iff.mpr ⟨tokens, span, line, success, stop⟩]
    exact mem_suffixes.mpr ⟨wide, (known_iff _).mpr named⟩
  · intro c member
    rw [places] at member
    cases touched : touched? front with
    | none =>
      rw [touched] at member
      cases member
    | some name =>
      rw [touched] at member
      obtain ⟨tokens, span, line, success, stop⟩ := touched?_eq_some_iff.mp touched
      obtain ⟨wide, known⟩ := mem_suffixes.mp member
      have named := (known_iff _).mp known
      have long : IsSymbol (name ++ c) := by
        obtain bound | ⟨k, same⟩ := named
        · exact fed.isSymbol _ bound
        · exact same ▸ isSymbol_keyword k
      obtain ⟨head, split, start, same⟩ := tokenize_completed success stop long
      refine ⟨wide, tokens, name, span, line, head, split, ?_, success, named, same⟩
      rw [← start, ← stop]

/-- A name that begins like an exponent, behind a number that does not touch it. -/
theorem candidates_complete_behind_number :
    let s := ((Session.fresh 512).run "(define e+5 0)").session
    Session.Fed 512 Session.defaultFuel s ∧ candidates s "(1 e+)" 5 = ["5"] ∧ "e+5" ∈ s.names ∧
      tokenize "(1 e+5" = .ok [⟨.opener .round, ⟨0, 1⟩, 1⟩, ⟨.atom (.number 1), ⟨1, 2⟩, 1⟩,
        ⟨.atom (.symbol "e+5"), ⟨3, 6⟩, 1⟩] := by
  intro s
  have fed : Session.Fed 512 Session.defaultFuel s := .run "(define e+5 0)" .fresh
  have found : candidates s "(1 e+)" 5 = ["5"] := by decide +kernel
  have bound : "e+5" ∈ s.names := by decide +kernel
  have scanned : tokenize "(1 e+" = .ok ([⟨.opener .round, ⟨0, 1⟩, 1⟩,
      ⟨.atom (.number 1), ⟨1, 2⟩, 1⟩] ++ [⟨.atom (.symbol "e+"), ⟨3, 5⟩, 1⟩]) := by decide +kernel
  obtain ⟨-, offered, completes⟩ := candidates_complete fed "(1 e+".toList [')']
  have member := offered _ "e+" ⟨3, 5⟩ 1 "5" (by decide) scanned rfl (.inl bound)
  obtain ⟨-, tokens, name, span, line, head, split, stands, success, -, same⟩ :=
    completes "5" member
  have cut := Except.ok.inj (scanned.symm.trans success)
  obtain ⟨rfl, last⟩ := List.append_inj' cut rfl
  cases last
  refine ⟨fed, found, bound, same.mpr ?_⟩
  -- the number ends before the blank
  rintro ⟨front, text, rfl, -, number, -⟩
  have stop : 2 = 0 + byteLength (front ++ text) := congrArg Span.stop (Option.some.inj number)
  have start : 3 = byteLength (front ++ text) := congrArg Span.start stands
  omega

/-- A number that touches the cursor's symbol: the completed name is its exponent. -/
theorem candidate_taken_as_exponent :
    let s := ((Session.fresh 512).run "(define e+5 0)").session
    candidates s "1e+" 3 = ["5"] ∧ "e+5" ∈ s.names ∧
      tokenize "1e+" =
        .ok [⟨.atom (.number 1), ⟨0, 1⟩, 1⟩, ⟨.atom (.symbol "e+"), ⟨1, 3⟩, 1⟩] ∧
      tokenize ("1e+" ++ "5") = .ok [⟨.atom (.number 100000), ⟨0, 4⟩, 1⟩] := by
  decide +kernel

end Completion
end MiniScheme
