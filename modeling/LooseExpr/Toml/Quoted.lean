/-!
# Strings of a TOML document

Four ways to write a string: between quotes with escapes, between apostrophes as it stands, and both over several lines
between three marks.  Each reader takes the characters after the opening mark and gives the text and what follows the
closing mark.  The number that the readers carry counts characters that were read with an earlier one, so that they go
through their input one by one.
-/
namespace LooseExpr.Toml

def isGap (c : Char) : Bool := c == ' ' || c == '\t'

/-- A character that may stand in a string or a comment: no control character but the tab. -/
def isPlain (c : Char) : Bool := c == '\t' || (32 ≤ c.toNat && c.toNat != 127)

def isHexDigit (c : Char) : Bool :=
  c.isDigit || ('a' ≤ c && c ≤ 'f') || ('A' ≤ c && c ≤ 'F')

/-- The number that a digit of any base up to sixteen stands for. -/
def digitOf (c : Char) : Nat :=
  if c.isDigit then c.toNat - 48 else if 'a' ≤ c then c.toNat - 87 else c.toNat - 55

def valueIn (base : Nat) (digits : List Char) : Nat := digits.foldl (fun n c => base * n + digitOf c) 0

def byCodePoint (width : Nat) (cs : List Char) : Option (Char × Nat) :=
  let digits := cs.take width
  let n := valueIn 16 digits
  if digits.length = width ∧ digits.all isHexDigit ∧ n.isValidChar then some (Char.ofNat n, width + 1) else none

/-- The character of an escape, and how many characters after the backslash it takes. -/
def escape : List Char → Option (Char × Nat)
  | [] => none
  | c :: cs =>
    if c = '"' ∨ c = '\\' then some (c, 1)
    else if c = 'b' then some ('\x08', 1)
    else if c = 't' then some ('\t', 1)
    else if c = 'n' then some ('\n', 1)
    else if c = 'f' then some ('\x0c', 1)
    else if c = 'r' then some ('\r', 1)
    else if c = 'e' then some ('\x1b', 1)
    else if c = 'x' then byCodePoint 2 cs
    else if c = 'u' then byCodePoint 4 cs
    else if c = 'U' then byCodePoint 8 cs
    else none

/-- A string in quotes on one line. -/
def basicText : Nat → List Char → Option (List Char × List Char)
  | _, [] => none
  | skip + 1, _ :: cs => basicText skip cs
  | 0, c :: cs =>
    if c = '"' then some ([], cs)
    else if c = '\\' then do
      let (d, taken) ← escape cs
      let (text, rest) ← basicText taken cs
      some (d :: text, rest)
    else if isPlain c then do
      let (text, rest) ← basicText 0 cs
      some (c :: text, rest)
    else none

def literalText : List Char → Option (List Char × List Char)
  | [] => none
  | c :: cs =>
    if c = '\'' then some ([], cs)
    else if isPlain c then do
      let (text, rest) ← literalText cs
      some (c :: text, rest)
    else none

def spaceLength : List Char → Nat
  | '\r' :: '\n' :: cs => spaceLength cs + 2
  | c :: cs => if isGap c || c == '\n' then spaceLength cs + 1 else 0
  | [] => 0

def startsLine : List Char → Bool
  | '\n' :: _ => true
  | '\r' :: '\n' :: _ => true
  | _ => false

def dropLineEnd : List Char → List Char
  | '\n' :: cs => cs
  | '\r' :: '\n' :: cs => cs
  | cs => cs

/-- Marks at the end of a string over several lines, after the first: three close it, and up to two more in front of
those are text.  Gives the marks that are text, and how many characters are taken. -/
def closing (mark : Char) (cs : List Char) : Option (List Char × Nat) :=
  let run := (cs.takeWhile (· == mark)).length
  if run < 2 then none else some (List.replicate (min run 4 - 2) mark, min run 4)

/-- A string in quotes over several lines.  A backslash at the end of a line joins it to the next character that is not
blank. -/
def basicLines : Nat → List Char → Option (List Char × List Char)
  | _, [] => none
  | skip + 1, _ :: cs => basicLines skip cs
  | 0, c :: cs =>
    if c = '"' then
      match closing '"' cs with
      | some (marks, taken) => some (marks, cs.drop taken)
      | none => do
        let (text, rest) ← basicLines 0 cs
        some (c :: text, rest)
    else if c = '\\' then
      if startsLine (cs.dropWhile isGap) then basicLines (spaceLength cs) cs
      else do
        let (d, taken) ← escape cs
        let (text, rest) ← basicLines taken cs
        some (d :: text, rest)
    else if isPlain c || startsLine (c :: cs) then do
      let (text, rest) ← basicLines 0 cs
      some (c :: text, rest)
    else none

def literalLines : List Char → Option (List Char × List Char)
  | [] => none
  | c :: cs =>
    match if c = '\'' then closing '\'' cs else none with
    | some (marks, taken) => some (marks, cs.drop taken)
    | none =>
      if isPlain c || startsLine (c :: cs) then do
        let (text, rest) ← literalLines cs
        some (c :: text, rest)
      else none

def quotedText : List Char → Option (List Char × List Char)
  | '"' :: '"' :: '"' :: cs => basicLines 0 (dropLineEnd cs)
  | '"' :: cs => basicText 0 cs
  | '\'' :: '\'' :: '\'' :: cs => literalLines (dropLineEnd cs)
  | '\'' :: cs => literalText cs
  | _ => none

end LooseExpr.Toml
