import MiniScheme.Console.Balance
import MiniScheme.Proofs.Datum.Acceptance
import MiniScheme.Proofs.Token.Boundary

/-!
# What can be read is found complete

The balance of brackets is checked over characters, and the scanner goes over lexemes. Where the
check stands in the code at the start of a lexeme, it stands in the code again at the end of it, and
has opened or closed the bracket that the lexeme is, if it is one. So the verdict is the one on the
bracket tokens matched alone (`checkFrom_tokens`), and data leave no bracket open.

The check knows nothing of character literals. The one for a bracket is taken for a bracket, the one
for a double quote or a semicolon begins a string or a comment, and a text that is read may then be
withheld. These literals are excluded here.
-/
namespace MiniScheme.Balance

open Lexeme Pattern Reader Grammar

/-- What a token does to the brackets open, innermost first. A bracket that closes nothing is given
with its offset. -/
def matchToken (stack : List Bracket) (t : Token) : Except (Bracket × Nat) (List Bracket) :=
  match t.kind with
  | .opener b => .ok (b :: stack)
  | .closer b =>
    match stack with
    | top :: rest => if top = b then .ok rest else .error (b, t.span.start)
    | [] => .error (b, t.span.start)
  | _ => .ok stack

/-- The brackets open after some tokens. -/
def matchTokens (stack : List Bracket) : List Token → Except (Bracket × Nat) (List Bracket)
  | [] => .ok stack
  | t :: tokens =>
    match matchToken stack t with
    | .ok stack' => matchTokens stack' tokens
    | .error unmatched => .error unmatched

/-- The verdict on a text whose brackets were matched. -/
def Verdict.ofMatch : Except (Bracket × Nat) (List Bracket) → Verdict
  | .error (b, offset) => .invalid b offset
  | .ok stack => if stack.isEmpty then .valid else .incomplete

/-! ## The check over one lexeme -/

section Characters

variable {c : Char} {text rest : List Char} (stack : List Bracket) (offset : Nat)

theorem checkFrom_silent_cons (silent : isDelimiter c = false) (cs : List Char) :
    checkFrom .code stack offset (c :: cs) = checkFrom .code stack (offset + c.utf8Size) cs := by
  simp only [isDelimiter, List.mem_cons, List.not_mem_nil, or_false, decide_eq_false_iff_not,
    not_or] at silent
  obtain ⟨round, round', square, square', quote, semicolon⟩ := silent
  have opened : opened? c = none := opened?.eq_3 c round square
  have closed : closed? c = none := closed?.eq_3 c round' square'
  simp [checkFrom, opened, closed, Mode.after, quote, semicolon]

/-- Text without delimiters changes nothing. -/
theorem checkFrom_silent (silent : ∀ c ∈ text, isDelimiter c = false) (rest : List Char) :
    checkFrom .code stack offset (text ++ rest) =
      checkFrom .code stack (offset + byteLength text) rest := by
  induction text generalizing offset with
  | nil => rfl
  | cons c text ih =>
    rw [List.forall_mem_cons] at silent
    rw [List.cons_append, checkFrom_silent_cons stack offset silent.1, ih _ silent.2,
      byteLength_cons, Nat.add_assoc]

theorem checkFrom_inComment (inside : ∀ c ∈ text, c ≠ '\n') (rest : List Char) :
    checkFrom .comment stack offset (text ++ rest) =
      checkFrom .comment stack (offset + byteLength text) rest := by
  induction text generalizing offset with
  | nil => rfl
  | cons c text ih =>
    rw [List.forall_mem_cons] at inside
    rw [List.cons_append, byteLength_cons, ← Nat.add_assoc, ← ih _ inside.2]
    simp [checkFrom, Mode.after, inside.1]

/-- A comment that ends with the line or with the text changes nothing. -/
theorem checkFrom_comment (inside : ∀ c ∈ text, c ≠ '\n')
    (ends : rest = [] ∨ ∃ ds, rest = '\n' :: ds) :
    checkFrom .code stack offset (';' :: text ++ rest) =
      checkFrom .code stack (offset + byteLength (';' :: text)) rest := by
  have enters : checkFrom .code stack offset (';' :: text ++ rest) =
      checkFrom .comment stack (offset + ';'.utf8Size) (text ++ rest) := rfl
  rw [enters, checkFrom_inComment stack _ inside, byteLength_cons, Nat.add_assoc]
  obtain rfl | ⟨ds, rfl⟩ := ends
  · rfl
  · rfl

/-- A string that is closed changes nothing. -/
theorem checkFrom_closed (closed : Closed text) (rest : List Char) :
    checkFrom .string stack offset (text ++ rest) =
      checkFrom .code stack (offset + byteLength text) rest := by
  induction closed generalizing offset with
  | quote => rfl
  | @escape c cs visible more ih =>
    have escapes : checkFrom .string stack offset ('\\' :: c :: cs ++ rest) =
        checkFrom .string stack (offset + '\\'.utf8Size + c.utf8Size) (cs ++ rest) := rfl
    rw [escapes, ih, byteLength_cons, byteLength_cons, Nat.add_assoc, Nat.add_assoc]
  | @plain c cs notQuote notBackslash more ih =>
    have inside : checkFrom .string stack offset (c :: cs ++ rest) =
        checkFrom .string stack (offset + c.utf8Size) (cs ++ rest) := by
      simp [checkFrom, Mode.after, notQuote, notBackslash]
    rw [inside, ih, byteLength_cons, Nat.add_assoc]

theorem silent_of_plain {k : Lexeme} (matched : text ∈ k.language) (plain : k.Plain) :
    ∀ c ∈ text, isDelimiter c = false := by
  intro c member
  have whole := unbroken matched plain c member
  simp only [isBreak, Bool.or_eq_false_iff] at whole
  exact whole.2

theorem silent_of_isLayout (layout : isLayout c) : isDelimiter c = false := by
  have blank : ¬ isLayout c = false := by simp [layout]
  obtain rfl | rfl | rfl | rfl | rfl := isLayout_cases blank
  all_goals rfl

theorem characterNames_silent {name : List Char} {d : Char}
    (named : Atom.characterNamed? (String.ofList name) = some d) :
    ∀ c ∈ name, isDelimiter c = false := by
  have all : ∀ entry ∈ Atom.characterNames, entry.1.toList.all (!isDelimiter ·) := by decide
  obtain ⟨entry, found, -⟩ := Option.map_eq_some_iff.mp named
  have same := List.find?_some found
  have silent := all entry (List.mem_of_find?_eq_some found)
  rw [eq_of_beq same, String.toList_ofList] at silent
  simpa using silent

/-- A character literal has no delimiter in it but the character that it stands for. -/
theorem silent_of_character {d : Char} (matched : text ∈ character.language)
    (decoded : Literal.character text = .ok d) (plain : isDelimiter d = false) :
    ∀ c ∈ text, isDelimiter c = false := by
  obtain ⟨c, name, -, -, rfl⟩ := mem_character.mp matched
  have body : ('#' :: '\\' :: c :: name).drop 2 = c :: name := rfl
  simp only [Literal.character, body] at decoded
  have silent : ∀ c' ∈ c :: name, isDelimiter c' = false := by
    split at decoded
    · next named => exact characterNames_silent named
    · split at decoded
      · next single =>
        cases single
        cases decoded
        exact List.forall_mem_singleton.mpr plain
      · cases decoded
  exact List.forall_mem_cons.mpr ⟨rfl, List.forall_mem_cons.mpr ⟨rfl, silent⟩⟩

end Characters

section Lexemes

variable {k : Lexeme} {text rest : List Char} {kind : Token.Kind} (stack : List Bracket)
  (p : Position)

/-- What is skipped changes nothing. -/
theorem checkFrom_skipped (matched : text ∈ k.language) (skipped : k.Skipped)
    (ends : k = .comment → rest = [] ∨ ∃ ds, rest = '\n' :: ds) :
    checkFrom .code stack p.offset (text ++ rest) =
      checkFrom .code stack (p.advance text).offset rest := by
  obtain rfl | rfl := skipped
  · have silent : ∀ c ∈ text, isDelimiter c = false := by
      intro c member
      exact silent_of_isLayout ((mem_plus_one.mp matched).2 c member)
    exact checkFrom_silent stack p.offset silent rest
  · obtain ⟨run, inside, rfl⟩ := mem_char_seq.mp matched
    have inside' : ∀ c ∈ run, c ≠ '\n' := by simpa using mem_star_one.mp inside
    exact checkFrom_comment stack p.offset inside' (ends rfl)

/-- A token is matched: the check goes on after it with the brackets that it leaves open, or gives
the bracket that closes nothing. -/
theorem checkFrom_token (matched : text ∈ k.language) (decoded : Literal.decode k text = .ok kind)
    (plain : ∀ c, kind = .atom (.character c) → isDelimiter c = false) :
    checkFrom .code stack p.offset (text ++ rest) =
      match matchToken stack ⟨kind, ⟨p.offset, (p.advance text).offset⟩, p.line⟩ with
      | .ok stack' => checkFrom .code stack' (p.advance text).offset rest
      | .error (b, offset) => .invalid b offset := by
  cases k with
  | blank | comment | unknown => cases decoded
  | opener b =>
    cases decoded
    cases mem_char.mp matched
    cases b <;> rfl
  | closer b =>
    cases decoded
    cases mem_char.mp matched
    cases stack with
    | nil => cases b <;> rfl
    | cons top below => cases b <;> cases top <;> rfl
  | dot | quote | boolean | symbol =>
    cases decoded
    exact checkFrom_silent stack p.offset (silent_of_plain matched trivial) rest
  | number =>
    obtain ⟨x, value⟩ := exists_of_map_eq_ok decoded
    simp only [Literal.decode, value] at decoded
    cases decoded
    exact checkFrom_silent stack p.offset (silent_of_plain matched trivial) rest
  | character =>
    obtain ⟨d, value⟩ := exists_of_map_eq_ok decoded
    simp only [Literal.decode, value] at decoded
    cases decoded
    exact checkFrom_silent stack p.offset
      (silent_of_character matched value (plain d rfl)) rest
  | string =>
    obtain ⟨contents, value⟩ := exists_of_map_eq_ok decoded
    simp only [Literal.decode, value] at decoded
    cases decoded
    obtain ⟨tail, more, rfl⟩ := mem_char_seq.mp matched
    have enters : checkFrom .code stack p.offset ('"' :: tail ++ rest) =
        checkFrom .string stack (p.offset + '"'.utf8Size) (tail ++ rest) := rfl
    rw [enters, checkFrom_closed stack _ (closed_of_stringTail more value), Nat.add_assoc]
    rfl

theorem stops_at_newline (cs : List Char) :
    cs.drop (runLength (· ≠ '\n') cs) = [] ∨
      ∃ ds, cs.drop (runLength (· ≠ '\n') cs) = '\n' :: ds := by
  induction cs with
  | nil => exact .inl rfl
  | cons c cs ih =>
    by_cases newline : c = '\n'
    · subst newline
      exact .inr ⟨cs, rfl⟩
    · rw [runLength, List.takeWhile_cons_of_pos (by simpa using newline), List.length_cons,
        List.drop_succ_cons]
      exact ih

/-- A comment is followed by a newline or by nothing. -/
theorem comment_ends {c : Char} {cs : List Char} (comment : (classify c cs).1 = .comment) :
    cs.drop (classify c cs).2 = [] ∨ ∃ ds, cs.drop (classify c cs).2 = '\n' :: ds := by
  have known : (classify c cs).1 ≠ .unknown := by simp [comment]
  obtain ⟨matched, -⟩ := classify_longest known
  rw [comment] at matched
  obtain ⟨_, -, same⟩ := mem_char_seq.mp matched
  cases same
  exact stops_at_newline cs

end Lexemes

/-! ## The check over a text -/

section Tokens

variable {tokens : List Token}

/-- The verdict on a text without lexical errors is the verdict on its tokens. -/
theorem checkFrom_tokens {p : Position} {cs : List Char}
    (scanned : Scan.itemsOnto [] p cs = asItems tokens)
    (plain : ∀ t ∈ tokens, ∀ c, t.kind = .atom (.character c) → isDelimiter c = false)
    (stack : List Bracket) :
    checkFrom .code stack p.offset cs = .ofMatch (matchTokens stack tokens) := by
  induction length : cs.length using Nat.strongRecOn generalizing p cs tokens stack with
  | _ n ih =>
    cases cs with
    | nil =>
      rw [Scan.itemsOnto] at scanned
      cases tokens with
      | nil => rfl
      | cons t tokens => cases scanned
    | cons c cs =>
      have whole : c :: cs = (c :: cs.take (classify c cs).2) ++ cs.drop (classify c cs).2 := by
        rw [List.cons_append, List.take_append_drop]
      have shorter : (cs.drop (classify c cs).2).length < n := by
        rw [← length, List.length_drop, List.length_cons]
        omega
      rw [Scan.itemsOnto_cons] at scanned
      have clean : ∀ e, Scan.item? p (classify c cs).1 (c :: cs.take (classify c cs).2) ≠
          some (.error e) := by
        intro e failed
        rw [failed] at scanned
        cases tokens <;> cases scanned
      have known : (classify c cs).1 ≠ .unknown := by
        intro unknown
        rw [unknown] at clean
        exact clean _ rfl
      obtain ⟨matched, -⟩ := classify_longest known
      -- the check is in the code here, and again after this lexeme
      rw [whole]
      by_cases skipped : (classify c cs).1.Skipped
      · rw [checkFrom_skipped stack p matched skipped comment_ends]
        rw [Scan.item?_of_skipped p skipped] at scanned
        exact ih _ shorter scanned plain stack rfl
      · obtain ⟨kind, decoded⟩ := Scan.decode_of_clean skipped clean
        rw [Scan.item?_of_decode p decoded] at scanned
        obtain ⟨tokens', rfl, later⟩ := asItems_eq_append (p := [_]) scanned.symm
        rw [List.singleton_append] at plain ⊢
        rw [List.forall_mem_cons] at plain
        rw [checkFrom_token stack p matched decoded plain.1, matchTokens]
        cases matchToken stack ⟨kind, ⟨p.offset, (p.advance _).offset⟩, p.line⟩ with
        | ok stack' => exact ih _ shorter later plain.2 stack' rfl
        | error unmatched => rfl

end Tokens

/-! ## Data are balanced -/

section Data

variable {stack stack' : List Bracket} {t : Token} {b : Bracket} (rest : List Token)

theorem matchTokens_step (matched : matchToken stack t = .ok stack') :
    matchTokens stack (t :: rest) = matchTokens stack' rest := by
  rw [matchTokens, matched]

theorem matchToken_opener (opens : t.kind = .opener b) : matchToken stack t = .ok (b :: stack) := by
  simp [matchToken, opens]

theorem matchToken_closer (closes : t.kind = .closer b) :
    matchToken (b :: stack) t = .ok stack := by
  simp [matchToken, closes]

mutual

/-- A datum closes the brackets that it opens, and no others. -/
theorem matchTokens_derives {p : List Token} {d : Datum} {k : Nat} (stack : List Bracket)
    (rest : List Token) : Derives p d k → matchTokens stack (p ++ rest) = matchTokens stack rest
  | .atom isAtom => matchTokens_step rest (by simp [matchToken, isAtom])
  | .list (b := b) opens inner closes => by
    simp only [List.cons_append, List.append_assoc, List.nil_append]
    rw [matchTokens_step _ (matchToken_opener opens), matchTokens_derivesAll (b :: stack) _ inner,
      matchTokens_step _ (matchToken_closer closes)]
  | .dotted (b := b) opens inner nonempty isDot last closes => by
    simp only [List.cons_append, List.append_assoc, List.nil_append]
    rw [matchTokens_step _ (matchToken_opener opens), matchTokens_derivesAll (b :: stack) _ inner,
      matchTokens_step _ (by simp [matchToken, isDot]; rfl),
      matchTokens_derives (b :: stack) _ last, matchTokens_step _ (matchToken_closer closes)]
  | .quote marks inner => by
    rw [List.cons_append, matchTokens_step _ (by simp [matchToken, marks]; rfl),
      matchTokens_derives stack rest inner]

theorem matchTokens_derivesAll {p : List Token} {ds : List Datum} {k : Nat} (stack : List Bracket)
    (rest : List Token) : DerivesAll p ds k → matchTokens stack (p ++ rest) = matchTokens stack rest
  | .nil => rfl
  | .cons head tail => by
    rw [List.append_assoc, matchTokens_derives stack _ head, matchTokens_derivesAll stack rest tail]

end

end Data

/-- Data are read from a text only if nothing that was read is an error. -/
theorem clean_of_mapM {readings : List (Except ReadError Datum)} {data : List Datum}
    (success : readings.mapM id = .ok data) : ∀ e, .error e ∉ readings := by
  simp [eq_map_ok_of_mapM success]

/-- A text of which every datum can be read is found complete, unless a character literal for a
bracket, a double quote or a semicolon is in it. -/
theorem check_of_parseAll {source : String} {data : List Datum}
    (reads : Datum.parseAll source = .ok data)
    (literals : ∀ t c, .ok t ∈ scan source → t.kind = .atom (.character c) →
      isDelimiter c = false) : check source.toList = .valid := by
  obtain ⟨tokens, ds, k, scanned, derived⟩ := derivesAll_of_readAll (clean_of_mapM reads)
  have plain : ∀ t ∈ tokens, ∀ c, t.kind = .atom (.character c) → isDelimiter c = false := by
    intro t member c
    refine literals t c ?_
    rw [scanned]
    exact List.mem_map_of_mem member
  have matched := matchTokens_derivesAll [] [] derived
  rw [List.append_nil] at matched
  have verdict : check source.toList = .ofMatch (matchTokens [] tokens) :=
    checkFrom_tokens scanned plain []
  rw [verdict, matched]
  rfl

/-- Brackets in a string and in a comment do not count, and neither do the other characters. -/
theorem check_of_parseAll_mixed :
    let source := "[\")\"#\\a];("
    (∃ data, Datum.parseAll source = .ok data) ∧ check source.toList = .valid := by
  intro source
  have items : scan source = asItems [⟨.opener .square, ⟨0, 1⟩, 1⟩,
      ⟨.atom (.string ")"), ⟨1, 4⟩, 1⟩, ⟨.atom (.character 'a'), ⟨4, 7⟩, 1⟩,
      ⟨.closer .square, ⟨7, 8⟩, 1⟩] := by cbv
  have reads : Datum.parseAll source = .ok [.cons ⟨0, 8⟩ (.atom ⟨1, 4⟩ (.string ")"))
      (.cons ⟨4, 8⟩ (.atom ⟨4, 7⟩ (.character 'a')) (.nil ⟨7, 8⟩))] := by cbv
  refine ⟨⟨_, reads⟩, check_of_parseAll reads ?_⟩
  intro t c member kind
  rw [items] at member
  simp only [asItems, List.map_cons, List.map_nil, List.mem_cons, List.not_mem_nil, or_false,
    Except.ok.injEq] at member
  obtain rfl | rfl | rfl | rfl := member
  · cases kind
  · cases kind
  · cases kind
    rfl
  · cases kind

/-- The literal for an opening bracket is read, but the text is found to lack something. -/
theorem check_incomplete_of_character :
    Datum.parseAll "#\\(" = .ok [.atom ⟨0, 3⟩ (.character '(')] ∧
      check "#\\(".toList = .incomplete := by
  constructor
  · cbv
  · cbv

end MiniScheme.Balance
