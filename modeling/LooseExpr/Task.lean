import LooseExpr.Fault
import LooseExpr.Store
/-!
# Tasks and their listeners

A task is run by a scheduler, at most once for each of its plans until it succeeds.  Before and after each attempt a
listener is told about it: `Task.report` is the struct it is handed.  What a listener does cannot hurt the task; only the
struct that it returns before a mail is sent changes something, the details of that mail.
-/
namespace LooseExpr

/-- When to try again: how often, and after how many seconds. -/
structure Plan where
  tries : UInt32
  interval : UInt64
deriving DecidableEq, Inhabited

structure Mail where
  charset : String
  replyTo : List String
  failTo : List String
deriving DecidableEq, Inhabited

structure Caller where
  template : String
  line : Nat
deriving DecidableEq, Inhabited

/-- A task.  Its times are in milliseconds; zero stands for never. -/
structure Task where
  id : String
  type : String
  created : Int
  lastRun : Int
  nextRun : Int
  tries : UInt32
  plans : List Plan
  closed : Bool
  detail : Record
  exceptions : List String
  mail : Option Mail
deriving Inhabited

/-- The seconds of an interval as a signed word: the upper half of the range counts as negative. -/
def Plan.seconds (p : Plan) : Int := p.interval.toInt64.toInt

namespace Task

def structOf (r : Record) : StateM Store Value := modifyGet fun s =>
  let (id, s) := s.newStruct r
  (.struct id, s)

def arrayOf (items : List Value) : StateM Store Value := modifyGet fun s =>
  let (id, s) := s.newArray items
  (.array id, s)

def recordOf (entries : List (String × Value)) : Record :=
  entries.foldl (fun r entry => r.set (Key.wellKnown entry.1) entry.2) []

def texts (items : List String) : StateM Store Value := arrayOf (items.map .text)

def fullDetail (t : Task) : StateM Store Record := do
  match t.mail with
  | none => return t.detail
  | some mail =>
    let detail := t.detail.set (Key.wellKnown "charset") (.text mail.charset)
    let detail := detail.set (Key.wellKnown "replyto") (← texts mail.replyTo)
    return detail.set (Key.wellKnown "failto") (← texts mail.failTo)

/-- The tries that are left after a failure; without one, none are needed. -/
def remainingTries (t : Task) (error : Option Fault) : Int :=
  if error.isSome then (t.plans.length : Int) - t.tries.toNat else 0

def planValue (p : Plan) : StateM Store Value :=
  structOf (recordOf [("tries", .ofInt p.tries.toNat), ("interval", .ofInt p.seconds)])

/-- A time that is left out if it is never. -/
def timeEntry (name : String) (time : Int) : List (String × Value) := if 0 < time then [(name, .instant time)] else []

/-- What a listener is told about a task, before an attempt or after it. -/
def report (t : Task) (error : Option Fault) (before : Bool) (caller : Caller) : StateM Store Record := do
  let detail ← structOf (← t.fullDetail)
  let exception ← match error with
    | none => pure []
    | some f => do pure [("exception", ← structOf (recordOf [("message", .text f.message)]))]
  let caller ← structOf (recordOf [("template", .text caller.template), ("line", .ofInt caller.line)])
  let exceptions ← texts t.exceptions
  let plans ← arrayOf (← t.plans.mapM planValue)
  let advanced ← structOf (recordOf [("exceptions", exceptions), ("executedPlans", plans)])
  return recordOf (
    timeEntry "lastExecution" t.lastRun ++ timeEntry "nextExecution" t.nextRun
    ++ [("created", .instant t.created), ("id", .text t.id), ("type", .text t.type), ("detail", detail),
      ("tries", .ofInt t.tries.toNat), ("remainingtries", .ofInt (t.remainingTries error)), ("closed", .bool t.closed)]
    ++ (if before then [] else [("passed", .bool error.isNone)])
    ++ exception ++ [("caller", caller), ("advanced", advanced)])

def modify (t : Task) (changes : Record) : Task :=
  { t with detail := changes.foldl (fun detail entry => detail.set entry.1 entry.2) t.detail }

def changes? (t : Task) (before : Bool) (s : Store) : Except Fault Value → Option Record
  | .ok (.struct id) => if before && t.mail.isSome then some (s.record id) else none
  | _ => none

/-- Tells a listener about a task, by a report and whether the attempt is still to come.  The listener answers with a
value or fails.  Yields the changes it asked for, and the task with them. -/
def notify {m : Type → Type} [Monad m] [MonadStateOf Store m] (t : Task)
    (listener : StructId → Bool → m (Except Fault Value)) (error : Option Fault) (before : Bool) (caller : Caller) :
    m (Option Record × Task) := do
  let r ← modifyGet fun s => (t.report error before caller).run s
  let id ← modifyGet fun s => s.newStruct r
  let answer ← listener id before
  -- an answer leads into the store as the listener left it
  match t.changes? before (← get) answer with
  | some changes => return (some changes, t.modify changes)
  | none => return (none, t)

/-- The task after an attempt: a failure is noted, and an attempt that is over counts. -/
def afterAttempt (t : Task) (error : Option Fault) (before : Bool) : Task :=
  { t with
    exceptions := t.exceptions ++ (error.map Fault.message).toList
    tries := if before then t.tries else t.tries + 1 }

end Task

end LooseExpr
