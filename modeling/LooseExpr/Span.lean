/-!
# Spans

Where in a source text an expression stands.  Both ends are positions: a line and a column, counted from one, and the
number of bytes before them.
-/
namespace LooseExpr

structure Position where
  line : Nat
  column : Nat
  offset : Nat
deriving DecidableEq, Inhabited

structure Span where
  start : Position
  stop : Position
deriving DecidableEq, Inhabited

namespace Span

/-- From the start of one span to the end of another; one that is unknown does not count. -/
def merge : Option Span → Option Span → Option Span
  | some a, some b => some ⟨a.start, b.stop⟩
  | some s, none => some s
  | none, s => s

def text (s : Span) : String := "line " ++ toString s.start.line ++ ", column " ++ toString s.start.column

end Span

end LooseExpr
