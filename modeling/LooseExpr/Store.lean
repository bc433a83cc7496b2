import LooseExpr.Key
import LooseExpr.Value
/-!
# The store of structs and arrays

A record is the contents of a struct: entries under keys whose case does not count.  Setting an entry that is there
replaces its value and keeps the spelling of its key.  A store holds the records and the item lists that the handles in
values lead to.  `Store.picture` unfolds a value into a finite tree, which is what is printed; a struct that holds
itself is cut off where it comes again.
-/
namespace LooseExpr

abbrev Record := List (Key × Value)

namespace Record

def get? (r : Record) (key : Key) : Option Value := (r.find? fun entry => entry.1.same key).map Prod.snd

def contains (r : Record) (key : Key) : Bool := r.any fun entry => entry.1.same key

def set (r : Record) (key : Key) (value : Value) : Record :=
  match r with
  | [] => [(key, value)]
  | (k, v) :: rest => if k.same key then (k, value) :: rest else (k, v) :: set rest key value

def sorted (r : Record) : List (Key × Value) := r.mergeSort fun a b => a.1.folded ≤ b.1.folded

end Record

structure Store where
  structs : Array Record
  arrays : Array (List Value)
deriving Inhabited

namespace Store

def empty : Store := ⟨#[], #[]⟩

def record (s : Store) (id : StructId) : Record := s.structs.getD id.index []

def items (s : Store) (id : ArrayId) : List Value := s.arrays.getD id.index []

def set (s : Store) (id : StructId) (key : Key) (value : Value) : Store :=
  { s with structs := s.structs.modify id.index fun r => r.set key value }

def newStruct (s : Store) (r : Record) : StructId × Store := (⟨s.structs.size⟩, { s with structs := s.structs.push r })

def newArray (s : Store) (items : List Value) : ArrayId × Store :=
  (⟨s.arrays.size⟩, { s with arrays := s.arrays.push items })

end Store

/-! ## Pictures -/

inductive Picture where
  | null
  | bool (b : Bool)
  | number (d : Decimal)
  | text (s : String)
  | instant (milliseconds : Int)
  | struct (entries : List (String × Picture))
  | array (items : List Picture)
  /-- A struct that is being unfolded already. -/
  | again
deriving Inhabited

namespace Store

/-- Unfolds a value below the structs of `path`; `depth` bounds how deep. -/
def pictureAt (s : Store) : Nat → List StructId → Value → Picture
  | _, _, .null => .null
  | _, _, .bool b => .bool b
  | _, _, .number d => .number d
  | _, _, .text t => .text t
  | _, _, .instant ms => .instant ms
  | 0, _, .struct _ => .again
  | 0, _, .array _ => .again
  | depth + 1, path, .struct id =>
    if id ∈ path then .again
    else .struct ((s.record id).sorted.map fun entry => (entry.1.spelling, pictureAt s depth (id :: path) entry.2))
  | depth + 1, path, .array id => .array ((s.items id).map fun item => pictureAt s depth path item)

/-- Unfolds a value.  Arrays only hold what was there before them, so this is deep enough for every value. -/
def picture (s : Store) (v : Value) : Picture :=
  s.pictureAt ((s.structs.size + 1) * (s.arrays.size + 1) + 1) [] v

end Store

namespace Picture

mutual

def display : Picture → String
  | null => "null"
  | bool b => Value.boolText b
  | number d => d.toText
  | text s => "\"" ++ s ++ "\""
  | instant ms => Value.instantText ms
  | struct entries => "\x7b" ++ ", ".intercalate (displayEntries entries) ++ "\x7d"
  | array items => "[" ++ ", ".intercalate (displayItems items) ++ "]"
  | again => "..."

def displayItems : List Picture → List String
  | [] => []
  | item :: items => display item :: displayItems items

def displayEntries : List (String × Picture) → List String
  | [] => []
  | (name, value) :: entries => (name ++ ": " ++ display value) :: displayEntries entries

end

end Picture

/-- The printed form of a value; a struct that holds itself is cut off where it comes again. -/
def Store.display (s : Store) (v : Value) : String := (s.picture v).display

end LooseExpr
