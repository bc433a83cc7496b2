import LooseExpr.Fault
import LooseExpr.Settings.Basic
import LooseExpr.Store
/-!
# Sessions

A session is what expressions are evaluated in: settings, a store in which every scope has a struct of its own, and
whether arithmetic is allowed.  It also keeps the marks that evaluation leaves.  A computation in a session
(`Eval`) may fail; what it changed before it failed stays changed.

A variable is a path: a scope, a first key and more keys below.  Reading looks for the first key of a path without scope
in several scopes; writing decides between three of them.
-/
namespace LooseExpr

structure Session where
  settings : Settings
  limited : Bool
  store : Store
  marks : List String
deriving Inhabited

abbrev Eval := ExceptT Fault (StateM Session)

namespace Session

def new (settings : Settings) (limited : Bool) : Session :=
  { settings, limited, store := ⟨Array.replicate Scope.named.length [], #[]⟩, marks := [] }

def scopeId (scope : Scope) : StructId := ⟨scope.slot⟩

def lookupIn (s : Session) (scope : Scope) (key : Key) : Option Value := (s.store.record (scopeId scope)).get? key

def lookup (s : Session) (scope : Scope) (key : Key) : Option Value :=
  if scope = .undefined then Scope.searchOrder.findSome? fun candidate => s.lookupIn candidate key
  else s.lookupIn scope key

/-- The struct that a variable is written into: without a scope, the local or argument variables that hold it. -/
def writeTarget (s : Session) (scope : Scope) (key : Key) : StructId :=
  if scope = .undefined then
    if (s.lookupIn .locals key).isSome then scopeId .locals
    else if (s.lookupIn .arguments key).isSome then scopeId .arguments
    else scopeId scope
  else scopeId scope

def setEntry (s : Session) (id : StructId) (key : Key) (value : Value) : Session :=
  { s with store := s.store.set id key value }

def setVariable (s : Session) (scope : Scope) (key : Key) (value : Value) : Session :=
  s.setEntry (s.writeTarget scope key) key value

end Session

namespace Eval

def lift {α : Type} (x : Except Fault α) : Eval α := ExceptT.mk (pure x)

def newStruct : Eval StructId := do
  let s ← get
  let (id, store) := s.store.newStruct []
  set { s with store }
  return id

def newArray : Eval ArrayId := do
  let s ← get
  let (id, store) := s.store.newArray []
  set { s with store }
  return id

def setEntry (id : StructId) (key : Key) (value : Value) : Eval Unit := modify fun s => s.setEntry id key value

def mark (text : String) : Eval Unit := modify fun s => { s with marks := s.marks ++ [text] }

def ensureUnrestricted : Eval Unit := do
  if (← get).limited then throw .restricted

end Eval

/-! ## Paths -/

def pathName (scope : Scope) (keys : List Key) : String :=
  ".".intercalate ((if scope = .undefined then [] else [scope.name]) ++ keys.map Key.spelling)

/-- What lies under keys below a value; none if one of them is missing. -/
def descend (store : Store) (v : Value) : List Key → Except Fault (Option Value)
  | [] => .ok (some v)
  | key :: keys =>
    match v with
    | .struct id =>
      match (store.record id).get? key with
      | some next => descend store next keys
      | none => .ok none
    | other => .error (.noMember key.spelling other.type)

/-- Reads the value at a path; none if a key is missing.  A path without keys is the scope itself. -/
def Eval.readPath (scope : Scope) : List Key → Eval (Option Value)
  | [] => return some (.struct (Session.scopeId scope))
  | first :: rest => do
    let s ← get
    match s.lookup scope first with
    | some v => lift (descend s.store v rest)
    | none => return none

def Eval.readDefined (scope : Scope) (keys : List Key) : Eval Value := do
  match ← readPath scope keys with
  | some v => return v
  | none => throw (.undefinedVariable (pathName scope keys))

/-- Goes down from a struct to the one that an entry is set in, making the structs that are missing. -/
def Eval.openPath (last : Key) (container : StructId) : List Key → Eval StructId
  | [] => return container
  | key :: keys => do
    match ((← get).store.record container).get? key with
    | some (.struct id) => openPath last id keys
    | some other => throw (.noAssignment last.spelling other.type)
    | none =>
      let id ← newStruct
      setEntry container key (.struct id)
      openPath last id keys

def Eval.writePath (scope : Scope) (keys : List Key) (value : Value) : Eval Unit :=
  match keys.getLast? with
  | none => throw (.scopeTarget scope)
  | some last => do
    -- decided by the first key, before any struct on the way is made
    let container := (← get).writeTarget scope (keys.headD last)
    let container ← openPath last container keys.dropLast
    setEntry container last value

end LooseExpr
