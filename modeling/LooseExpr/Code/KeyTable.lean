import LooseExpr.Key
/-!
# Key tables

The keys that a unit of code refers to by number.  They stand in the order of their first use, under the spelling of
that use; a name that differs only in case has the same number.  Numbers are not searched for in the keys: an index
beside them leads from a key to its number, and a table is only made with an index that is in step with its keys.
-/
namespace LooseExpr

/-- The index leads from a key to the first of the keys that names the same entry. -/
def KeyTable.InStep (keys : List Key) (index : List (Key × Nat)) : Prop :=
  ∀ key : Key, (index.find? fun entry => entry.1.same key).map Prod.snd = keys.findIdx? fun k => k.same key

structure KeyTable where
  keys : List Key
  index : List (Key × Nat)
  inStep : KeyTable.InStep keys index

namespace KeyTable

def empty : KeyTable := ⟨[], [], fun _ => rfl⟩

def get? (t : KeyTable) (name : String) : Option Nat :=
  (t.index.find? fun entry => entry.1.same ⟨name⟩).map Prod.snd

/-- **A new key keeps the index in step**: it is led to the place after the last of the keys. -/
theorem InStep.add {keys : List Key} {index : List (Key × Nat)} (h : InStep keys index) {new : Key}
    (hnew : (index.find? fun entry => entry.1.same new).map Prod.snd = none) :
    InStep (keys ++ [new]) ((new, keys.length) :: index) := by
  intro key
  rw [List.find?_cons, List.findIdx?_append, ← h key]
  cases hsame : new.same key with
  | true =>
    have hfolded : new.folded = key.folded := eq_of_beq hsame
    have hother : (fun entry : Key × Nat => entry.1.same key) = fun entry => entry.1.same new := by
      funext entry
      rw [Key.same, Key.same, hfolded]
    rw [hother, hnew]
    simp [hsame]
  | false => simp [hsame]

def add (t : KeyTable) (name : String) (h : t.get? name = none) : KeyTable :=
  ⟨t.keys ++ [⟨name⟩], (⟨name⟩, t.keys.length) :: t.index, t.inStep.add h⟩

/-- The number of a name, which is added if it is new. -/
def register (t : KeyTable) (name : String) : Nat × KeyTable :=
  match h : t.get? name with
  | some i => (i, t)
  | none => (t.keys.length, t.add name h)

def size (t : KeyTable) : Nat := t.keys.length

def isEmpty (t : KeyTable) : Bool := t.keys.isEmpty

end KeyTable

end LooseExpr
