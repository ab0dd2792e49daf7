import MiniScheme.Source.Position
import MiniScheme.Token.Literal

/-!
# Scanning

A text is cut into lexemes from left to right. Layout and comments are dropped; every other lexeme
gives one item, a token or an error, and scanning goes on after it, so the lexemes of a text put
together are the text.
-/
namespace MiniScheme

/-- One result of scanning. -/
abbrev Item := Except LexicalError Token

namespace Scan

/-- The item that a lexeme with a text at a position gives, if it is not skipped. -/
def item? (p : Position) (lexeme : Lexeme) (text : List Char) : Option Item :=
  match lexeme with
  | .blank => none
  | .comment => none
  | lexeme =>
    let span : Span := ⟨p.offset, (p.advance text).offset⟩
    match Literal.decode lexeme text with
    | .ok kind => some (.ok ⟨kind, span, p.line⟩)
    | .error fault => some (.error ⟨fault, span, p.line, String.ofList text⟩)

/-- The items of a text that begins at a position, put in front of `done` in reverse. -/
def itemsOnto (done : List Item) (p : Position) : List Char → List Item
  | [] => done.reverse
  | c :: cs =>
    let found := Lexeme.classify c cs
    let text := c :: cs.take found.2
    itemsOnto ((item? p found.1 text).toList ++ done) (p.advance text) (cs.drop found.2)
termination_by cs => cs.length
decreasing_by simp only [List.length_drop, List.length_cons]; omega

theorem itemsOnto_eq (done : List Item) (p : Position) (cs : List Char) :
    itemsOnto done p cs = done.reverse ++ itemsOnto [] p cs := by
  induction hn : cs.length using Nat.strongRecOn generalizing done p cs with
  | _ n ih =>
    cases cs with
    | nil => simp [itemsOnto]
    | cons c cs =>
      have shorter : (cs.drop (Lexeme.classify c cs).2).length < n := by
        rw [← hn, List.length_drop, List.length_cons]
        omega
      rw [itemsOnto, itemsOnto, ih _ shorter _ _ _ rfl, ih _ shorter (_ ++ []) _ _ rfl]
      simp

/-- All items of a text, in order. -/
def items (cs : List Char) : List Item := itemsOnto [] .first cs

end Scan

/-- All items of a source text, in order. -/
def scan (source : String) : List Item := Scan.items source.toList

/-- The tokens up to the first error, or that error. -/
def Scan.allTokens : List Item → Except LexicalError (List Token)
  | [] => .ok []
  | .error e :: _ => .error e
  | .ok t :: rest => (allTokens rest).map (t :: ·)

/-- The tokens of a source text, or its first lexical error. -/
def tokenize (source : String) : Except LexicalError (List Token) :=
  Scan.allTokens (scan source)

end MiniScheme
