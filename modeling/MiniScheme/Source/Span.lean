/-!
# Spans

A span is a half-open range of byte offsets into the UTF-8 form of a source text. Nothing here says
that the offsets are ordered or lie in a text: spans made by the scanner and the reader do, spans
given by a caller need not.
-/
namespace MiniScheme

/-- The byte offsets from `start` up to, not including, `stop`. The default span `0..0` belongs to
what no source text made. -/
structure Span where
  start : Nat
  stop : Nat
  deriving DecidableEq, Repr, Inhabited

namespace Span

/-- The least span that holds both. -/
def merge (a b : Span) : Span :=
  ⟨min a.start b.start, max a.stop b.stop⟩

/-- Number of bytes covered. -/
def size (s : Span) : Nat := s.stop - s.start

/-- Written form, `start..stop`. -/
def text (s : Span) : String :=
  s.start.repr ++ ".." ++ s.stop.repr

end Span
end MiniScheme
