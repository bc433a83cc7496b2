import LooseExpr.Fault
import LooseExpr.Settings.Basic
import LooseExpr.Toml.Document
/-!
# Settings from a text

Settings are the top entries of a TOML document.  An entry that is missing leaves the setting as it is by default, an
entry of the wrong kind makes the text unreadable, and other entries do not count.  Quotients need one digit at least.
-/
namespace LooseExpr.Settings

/-- A setting of a document: the default, if it is not there; nothing, if it has the wrong kind. -/
def entry {α : Type} (entries : Toml.Entries) (key : String) (standard : α) (read : Toml.Node → Option α) :
    Option α :=
  match entries.lookup key with
  | none => some standard
  | some node => read node

def textOf : Toml.Node → Option String
  | .string s => some s
  | _ => none

def flagOf : Toml.Node → Option Bool
  | .boolean b => some b
  | _ => none

def countOf : Toml.Node → Option UInt32
  | .integer n => if 0 ≤ n ∧ n < 4294967296 then some (UInt32.ofNat n.toNat) else none
  | _ => none

def ofEntries (entries : Toml.Entries) : Option Settings := do
  let standard : Settings := {}
  some {
    name := ← entry entries "name" standard.name textOf
    nullSupport := ← entry entries "null_support" standard.nullSupport flagOf
    divisionPrecision := ← entry entries "division_precision" standard.divisionPrecision countOf
    dotNotationUpperCase := ← entry entries "dot_notation_upper_case" standard.dotNotationUpperCase flagOf }

def ofText (text : String) : Except Fault Settings :=
  match Toml.parse text >>= ofEntries with
  | none => .error .unreadableSettings
  | some settings => if settings.divisionPrecision = 0 then .error .zeroPrecision else .ok settings

/-- The settings that a file holds: its bytes, or nothing if there is no such file. -/
def ofFile : Option ByteArray → Except Fault Settings
  | none => .error .unreadableSettings
  | some bytes =>
    match String.fromUTF8? bytes with
    | none => .error .unreadableSettings
    | some text => ofText text

end LooseExpr.Settings
