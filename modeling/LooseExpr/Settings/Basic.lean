import LooseExpr.Digest
import LooseExpr.Text.Json
/-!
# Settings

What an engine is told once: a name, whether the word `null` means nothing at all, how many digits a quotient has that
does not end, and whether member names are put in upper case.  A fingerprint tells settings apart; under it a registry
keeps the one factory that is made for them.
-/
namespace LooseExpr

structure Settings where
  name : String := "default"
  nullSupport : Bool := false
  divisionPrecision : UInt32 := 34
  dotNotationUpperCase : Bool := true
deriving DecidableEq

namespace Settings

instance : Inhabited Settings := ⟨{}⟩

def toJson (s : Settings) : Json := .obj [
  ("name", .str s.name), ("null_support", .bool s.nullSupport),
  ("division_precision", .int s.divisionPrecision.toNat), ("dot_notation_upper_case", .bool s.dotNotationUpperCase)]

def fingerprint (s : Settings) : String := Digest.sha256 s.toJson.compact

/-- What is made for settings once and then shared.  The serial number tells it from every other one. -/
structure Factory where
  serial : Nat
  settings : Settings
deriving DecidableEq

abbrev Registry := List (String × Factory)

/-- The factory kept under the same fingerprint, and the registry that holds it: the first one stays. -/
def Registry.share (registry : Registry) (s : Settings) : Factory × Registry :=
  match registry.lookup s.fingerprint with
  | some kept => (kept, registry)
  | none =>
    let made : Factory := ⟨registry.length, s⟩
    (made, registry ++ [(s.fingerprint, made)])

end Settings

end LooseExpr
