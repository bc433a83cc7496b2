/-!
# Blank characters

The characters that may stand around a number or a truth value without counting: the white space of the character
standard, which is more than the blank, tab and line ends of plain texts.
-/
namespace LooseExpr.Text

def isBlank (c : Char) : Bool :=
  let n := c.toNat
  (9 ≤ n && n ≤ 13) || n == 32 || n == 133 || n == 160 || n == 5760 || (8192 ≤ n && n ≤ 8202) || n == 8232 || n == 8233
    || n == 8239 || n == 8287 || n == 12288

def trimChars (cs : List Char) : List Char :=
  ((cs.dropWhile isBlank).reverse.dropWhile isBlank).reverse

def trim (s : String) : String := String.ofList (trimChars s.toList)

/-- Equal, if the case of the letters `a` to `z` does not count. -/
def eqIgnoringAsciiCase (a b : String) : Bool := a.toList.map Char.toLower == b.toList.map Char.toLower

/-- Lower case for the letters `a` to `z` only. -/
def asciiLower (s : String) : String := String.ofList (s.toList.map Char.toLower)

def occursIn (part : List Char) : List Char → Bool
  | [] => part.isEmpty
  | c :: cs => part.isPrefixOf (c :: cs) || occursIn part cs

end LooseExpr.Text
