import LooseExpr.Toml.Scalar
/-!
# The text of a TOML document

A document is read line by line into a draft: blank lines and comments, headers, and lines `key = value`.  Values may
nest in brackets and braces, below a fixed depth.  The readers call each other at most once for every character, so the
length of the text bounds the whole.
-/
namespace LooseExpr.Toml

/-- What follows the blanks, line ends and comments; `comment` tells that a comment has begun.  A comment holds plain
characters only. -/
def skipSpace (comment : Bool) : List Char → Option (List Char)
  | [] => some []
  | c :: cs =>
    if c = '\n' ∨ startsLine (c :: cs) then skipSpace false cs
    else if comment then (if isPlain c then skipSpace true cs else none)
    else if isGap c then skipSpace false cs
    else if c = '#' then skipSpace true cs
    else some (c :: cs)

/-- A line ends here, but for blanks and a comment. -/
def atLineEnd (cs : List Char) : Bool :=
  match cs.dropWhile isGap with
  | [] => true
  | '#' :: _ => true
  | cs => startsLine cs

def isNameChar (c : Char) : Bool := c.isAlphanum || c == '_' || c == '-'

def readName : List Char → Option (String × List Char)
  | '"' :: cs => (basicText 0 cs).map fun (text, rest) => (String.ofList text, rest)
  | '\'' :: cs => (literalText cs).map fun (text, rest) => (String.ofList text, rest)
  | cs =>
    let name := cs.takeWhile isNameChar
    if name.isEmpty then none else some (String.ofList name, cs.drop name.length)

def readPath : Nat → List Char → Option (Path × List Char)
  | 0, _ => none
  | fuel + 1, cs => do
    let (name, rest) ← readName cs
    match rest.dropWhile isGap with
    | '.' :: more =>
      let (path, rest) ← readPath fuel (more.dropWhile isGap)
      some (⟨name :: path.above, path.name⟩, rest)
    | rest => some (⟨[], name⟩, rest)

/-- The brackets and braces that may be open at once. -/
def maxDepth : Nat := 80

mutual

/-- A value; `room` is how many more brackets may be opened. -/
def readValue (room : Nat) : Nat → List Char → Option (Node × List Char)
  | 0, _ => none
  | fuel + 1, cs =>
    match cs with
    | '[' :: rest => if room = 0 then none else readItems (room - 1) fuel [] rest
    | '\x7b' :: rest => if room = 0 then none else readFields (room - 1) fuel [] rest
    | '"' :: _ => (quotedText cs).map fun (text, rest) => (.string (String.ofList text), rest)
    | '\'' :: _ => (quotedText cs).map fun (text, rest) => (.string (String.ofList text), rest)
    | _ => wordScalar cs

/-- The items of an array up to its closing bracket, the last one first. -/
def readItems (room : Nat) : Nat → List Node → List Char → Option (Node × List Char)
  | 0, _, _ => none
  | fuel + 1, items, cs => do
    match ← skipSpace false cs with
    | ']' :: rest => some (.array items.reverse, rest)
    | cs =>
      let (item, rest) ← readValue room fuel cs
      match ← skipSpace false rest with
      | ',' :: rest => readItems room fuel (item :: items) rest
      | ']' :: rest => some (.array (item :: items).reverse, rest)
      | _ => none

def readFields (room : Nat) : Nat → Entries → List Char → Option (Node × List Char)
  | 0, _, _ => none
  | fuel + 1, entries, cs => do
    match ← skipSpace false cs with
    | '\x7d' :: rest => some (.table .braces entries, rest)
    | cs =>
      match ← readPath fuel cs with
      | (path, '=' :: rest) =>
        let (value, rest) ← readValue room fuel (rest.dropWhile isGap)
        let (_, entries) ← define path value .braces entries
        match ← skipSpace false rest with
        | ',' :: rest => readFields room fuel entries rest
        | '\x7d' :: rest => some (.table .braces entries, rest)
        | _ => none
      | _ => none

end

/-- One line that is not empty: what it does to the draft, and what follows. -/
def readLine (fuel : Nat) (draft : Draft) : List Char → Option (Draft × List Char)
  | '[' :: '[' :: cs => do
    match ← readPath fuel (cs.dropWhile isGap) with
    | (path, ']' :: ']' :: rest) => some (← draft.openRepeated path, rest)
    | _ => none
  | '[' :: cs => do
    match ← readPath fuel (cs.dropWhile isGap) with
    | (path, ']' :: rest) => some (← draft.openTable path, rest)
    | _ => none
  | cs => do
    match ← readPath fuel cs with
    | (path, '=' :: rest) =>
      let (value, rest) ← readValue maxDepth fuel (rest.dropWhile isGap)
      some (← draft.define path value, rest)
    | _ => none

def readLines : Nat → Draft → List Char → Option Entries
  | 0, _, _ => none
  | fuel + 1, draft, cs => do
    match ← skipSpace false cs with
    | [] => some draft.root
    | cs =>
      let (draft, rest) ← readLine (fuel + 1) draft cs
      if atLineEnd rest then readLines fuel draft rest else none

/-- The top table of a document; a mark of the byte order in front does not count. -/
def parse (text : String) : Option Entries :=
  let cs := match text.toList with
    | '\ufeff' :: cs => cs
    | cs => cs
  readLines (cs.length + 1) {} cs

end LooseExpr.Toml
