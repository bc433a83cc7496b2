/-!
# Tables of a TOML document

A document is a tree of tables, written piece by piece: a header names the table that the next lines fill, a key with
dots reaches into tables below.  What may still be added to a table depends on what made it, so every table keeps that.
Main points: nothing is defined twice, a header may name a table once, and a key with dots adds only to tables that such
keys made.
-/
namespace LooseExpr.Toml

/-- What made a table: its own header, a header of a table below it, a key with dots, or braces. -/
inductive Origin where
  | header
  | longerHeader
  | dottedKey
  | braces
deriving DecidableEq

/-- What stands under a key.  Floats and dates keep their text. -/
inductive Node where
  | string (text : String)
  | integer (n : Int)
  | float (text : String)
  | boolean (b : Bool)
  | moment (text : String)
  | array (items : List Node)
  | table (origin : Origin) (entries : List (String × Node))
  /-- The tables under one repeated header; the last one is still open. -/
  | tables (earlier : List (List (String × Node))) (last : List (String × Node))

abbrev Entries := List (String × Node)

instance : Inhabited Node := ⟨.table .braces []⟩

/-- Names with dots between them: the tables on the way, and the name in the last of them. -/
structure Path where
  above : List String
  name : String

def put (key : String) (node : Node) : Entries → Entries
  | [] => [(key, node)]
  | (k, n) :: rest => if k = key then (k, node) :: rest else (k, n) :: put key node rest

/-- Changes the table at the end of a way, and makes the tables that are missing on it.  Of a repeated header the way
goes through the last table; through a value there is no way, and for a key with dots (`dotted`) none through a table
that has a header of its own. -/
def changeAt (dotted : Bool) (change : Origin → Entries → Option (Origin × Entries)) :
    List String → Origin → Entries → Option (Origin × Entries)
  | [], origin, entries => change origin entries
  | key :: way, origin, entries =>
    match entries.lookup key with
    | none => do
      let (made, inner) ← changeAt dotted change way (if dotted then .dottedKey else .longerHeader) []
      some (origin, entries ++ [(key, .table made inner)])
    | some (.table made inner) =>
      if made = .braces ∨ (dotted ∧ made = .header) then none
      else do
        let (made, inner) ← changeAt dotted change way made inner
        some (origin, put key (.table made inner) entries)
    | some (.tables earlier last) => do
      let (_, last) ← changeAt dotted change way .header last
      some (origin, put key (.tables earlier last) entries)
    | some _ => none

/-- Defines a key in a table.  The table it ends in was made by a key with dots if this key has dots, and only then. -/
def define (path : Path) (value : Node) : Origin → Entries → Option (Origin × Entries) :=
  changeAt true (fun origin entries =>
    if decide (origin = .dottedKey) = path.above.isEmpty ∨ (entries.lookup path.name).isSome then none
    else some (origin, entries ++ [(path.name, value)])) path.above

/-- A document while it is read: its top table, and the way to the table that lines go to. -/
structure Draft where
  root : Entries := []
  here : List String := []

namespace Draft

def define (d : Draft) (path : Path) (value : Node) : Option Draft := do
  let (_, root) ← changeAt false (Toml.define path value) d.here .header d.root
  some { d with root }

/-- The header of a table.  A table that only longer headers have named may get its header still. -/
def openTable (d : Draft) (path : Path) : Option Draft := do
  let (_, root) ← changeAt false (fun origin entries =>
    match entries.lookup path.name with
    | none => some (origin, entries ++ [(path.name, .table .header [])])
    | some (.table .longerHeader inner) => some (origin, put path.name (.table .header inner) entries)
    | some _ => none) path.above .header d.root
  some { root, here := path.above ++ [path.name] }

def openRepeated (d : Draft) (path : Path) : Option Draft := do
  let (_, root) ← changeAt false (fun origin entries =>
    match entries.lookup path.name with
    | none => some (origin, entries ++ [(path.name, .tables [] [])])
    | some (.tables earlier last) => some (origin, put path.name (.tables (earlier ++ [last]) []) entries)
    | some _ => none) path.above .header d.root
  some { root, here := path.above ++ [path.name] }

end Draft

end LooseExpr.Toml
