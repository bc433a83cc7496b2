import LooseExpr.Code.Instr
import LooseExpr.Code.KeyTable
import LooseExpr.Settings.Basic
/-!
# Units of code

A unit is code under a name, with the keys that the code refers to.  Code is added at its end; a jump that was added
before the place it leads to was known is given that place later.  A unit made for a source has a name that depends on
the path of the source only.
-/
namespace LooseExpr

structure CodeUnit where
  settings : Settings
  name : String
  code : Array Instr
  keys : KeyTable

namespace CodeUnit

def new (settings : Settings) (name : String) : CodeUnit := ⟨settings, name, #[], .empty⟩

def forSource (settings : Settings) (path : String) : CodeUnit :=
  new settings ("cf" ++ String.ofList ((Digest.sha256 path).toList.take 16))

def push (u : CodeUnit) (i : Instr) : CodeUnit := { u with code := u.code.push i }

/-- Gives the jump at a place another place to jump to. -/
def patch (u : CodeUnit) (index place : Nat) : CodeUnit := { u with code := u.code.modify index (Instr.retarget place) }

def codeFrom (u : CodeUnit) (place : Nat) : List Instr := u.code.toList.drop place

def toJson (u : CodeUnit) : Json := .obj [
  ("unit", .str u.name), ("code", .arr (u.code.toList.map Instr.toJson)),
  ("keys", .arr (u.keys.keys.map fun key => .str key.spelling))]

def dump (u : CodeUnit) : String := u.toJson.pretty

end CodeUnit

end LooseExpr
