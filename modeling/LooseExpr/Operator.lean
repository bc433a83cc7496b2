import LooseExpr.Text.Blank
/-!
# Operators and casts

The operators that expressions, references and emitted code share, and what they are called in a source text.
-/
namespace LooseExpr

inductive NumberOp where
  | plus
  | minus
  | multiply
  | divide
  | intDivide
  | modulus
  | exp
deriving DecidableEq, Inhabited

inductive BoolOp where
  | and
  | or
  | xor
  | eqv
  | imp
deriving DecidableEq, Inhabited

inductive DecisionOp where
  | lt
  | lte
  | gt
  | gte
  | eq
  | neq
  /-- Equal without any coercion. -/
  | eeq
  | neeq
  /-- Contains, without regard to case. -/
  | ct
  | nct
deriving DecidableEq, Inhabited

inductive SignOp where
  | plus
  | minus
deriving DecidableEq, Inhabited

/-- Which value a compound assignment yields: the new one or the old one. -/
inductive AssignKind where
  | pre
  | post
deriving DecidableEq, Inhabited

/-! ## Names and symbols -/

def NumberOp.all : List NumberOp := [plus, minus, multiply, divide, intDivide, modulus, exp]

def NumberOp.name : NumberOp → String
  | plus => "Plus"
  | minus => "Minus"
  | multiply => "Multiply"
  | divide => "Divide"
  | intDivide => "IntDivide"
  | modulus => "Modulus"
  | exp => "Exp"

def BoolOp.all : List BoolOp := [and, or, xor, eqv, imp]

def BoolOp.name : BoolOp → String
  | and => "And"
  | or => "Or"
  | xor => "Xor"
  | eqv => "Eqv"
  | imp => "Imp"

def DecisionOp.all : List DecisionOp := [lt, lte, gt, gte, eq, neq, eeq, neeq, ct, nct]

def DecisionOp.name : DecisionOp → String
  | lt => "Lt"
  | lte => "Lte"
  | gt => "Gt"
  | gte => "Gte"
  | eq => "Eq"
  | neq => "Neq"
  | eeq => "Eeq"
  | neeq => "Neeq"
  | ct => "Ct"
  | nct => "Nct"

def SignOp.all : List SignOp := [plus, minus]

def SignOp.name : SignOp → String
  | plus => "Plus"
  | minus => "Minus"

def AssignKind.all : List AssignKind := [pre, post]

def AssignKind.name : AssignKind → String
  | pre => "Pre"
  | post => "Post"

/-- What a source text writes for an operator. -/
def NumberOp.text : NumberOp → String
  | plus => "+"
  | minus => "-"
  | multiply => "*"
  | divide => "/"
  | intDivide => "\\"
  | modulus => "%"
  | exp => "^"

def BoolOp.text : BoolOp → String
  | and => "AND"
  | or => "OR"
  | xor => "XOR"
  | eqv => "EQV"
  | imp => "IMP"

def DecisionOp.text : DecisionOp → String
  | lt => "LT"
  | lte => "LTE"
  | gt => "GT"
  | gte => "GTE"
  | eq => "EQ"
  | neq => "NEQ"
  | eeq => "==="
  | neeq => "!=="
  | ct => "CONTAINS"
  | nct => "DOES NOT CONTAIN"

/-! ## Truth tables -/

def BoolOp.apply (op : BoolOp) (l r : Bool) : Bool :=
  match op with
  | and => l && r
  | or => l || r
  | xor => l != r
  | eqv => l == r
  | imp => !l || r

/-- The left operand alone decides the result. -/
def BoolOp.shortCircuit? : BoolOp → Bool → Option Bool
  | and, false => some false
  | or, true => some true
  | _, _ => none

/-! ## Casts -/

inductive CastTarget where
  | number
  | string
  | boolean
  | int
  | other (name : String)
deriving DecidableEq, Inhabited

end LooseExpr
