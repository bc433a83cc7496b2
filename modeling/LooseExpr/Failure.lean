import LooseExpr.Fault
import LooseExpr.Span
/-!
# Failures

A tree can be rejected before anything is evaluated, at a place in its source text; or its evaluation ends in a fault.
-/
namespace LooseExpr

inductive RejectionKind where
  | cast
  | compile
deriving DecidableEq, Inhabited

inductive Rejection where
  /-- A number literal that is no number. -/
  | notNumber (text : String)
  /-- An assignment to a scope and not to a variable in it. -/
  | scopeTarget (scope : Scope)
  /-- A null literal as the name of a member. -/
  | nullKey
  | stated (kind : RejectionKind) (text : String)
deriving DecidableEq

namespace Rejection

def kind : Rejection → RejectionKind
  | notNumber _ => .cast
  | scopeTarget _ => .compile
  | nullKey => .compile
  | stated kind _ => kind

def detail : Rejection → String
  | notNumber text => "can't cast [" ++ text ++ "] to a number"
  | scopeTarget scope => (Fault.scopeTarget scope).detail
  | nullKey => "a null literal can't be used as a key"
  | stated _ text => text

end Rejection

inductive Failure where
  | rejected (why : Rejection) (span : Option Span)
  | fault (f : Fault)
deriving DecidableEq

namespace Failure

def heading : RejectionKind → String
  | .cast => "CastError: "
  | .compile => "CompileError: "

def message : Failure → String
  | rejected why none => heading why.kind ++ why.detail
  | rejected why (some span) => heading why.kind ++ why.detail ++ " (" ++ span.text ++ ")"
  | fault f => f.message

def span? : Failure → Option Span
  | rejected _ span => span
  | fault _ => none

def fault? : Failure → Option Fault
  | rejected .. => none
  | fault f => some f

def isRestriction : Failure → Bool
  | rejected .. => false
  | fault f => f.isRestriction

end Failure

end LooseExpr
