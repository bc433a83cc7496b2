import LooseExpr.Text.Case
/-!
# Keys

A key names an entry of a struct.  It keeps the spelling it was made with, but the case of its letters does not count:
keys are compared by their lower case.  Some names are well known and have a constant each, called by the name after an
underscore; there the spelling does count.
-/
namespace LooseExpr

structure Key where
  spelling : String
deriving DecidableEq, Inhabited

namespace Key

/-- What keys are compared by. -/
def folded (k : Key) : String := Text.lower k.spelling

def same (a b : Key) : Bool := a.folded == b.folded

def cmp (a b : Key) : Ordering := compare a.folded b.folded

/-- The names with a constant of their own. -/
def wellKnownNames : List String := [
  "action", "application", "args", "argumentCollection", "arguments", "array", "attributes", "body", "caller", "cause",
  "cfcatch", "cgi", "charset", "client", "closed", "code", "column", "content", "cookie", "count", "created", "data",
  "date", "default", "detail", "error", "exception", "exceptions", "file", "filter", "form", "from", "id", "index",
  "item", "key", "label", "length", "line", "local", "message", "name", "number", "path", "query", "replyto", "request",
  "required", "result", "return", "scope", "server", "session", "size", "source", "status", "string", "struct", "super",
  "template", "text", "this", "time", "timeout", "title", "to", "tries", "type", "url", "value", "variables", "x", "y",
  "ACTION", "DATA", "DETAIL", "ID", "INDEX", "KEY", "LINE", "MESSAGE", "NAME", "RESULT", "STATUS", "TEMPLATE", "TYPE",
  "VALUE"]

/-- The field of the constant for exactly this name. -/
def fieldName? (name : String) : Option String := if name ∈ wellKnownNames then some ("_" ++ name) else none

def constant? (field : String) : Option Key := (wellKnownNames.find? fun name => "_" ++ name == field).map Key.mk

/-- The constant for a name, or a key of its own. -/
def wellKnown (name : String) : Key := ((fieldName? name).bind constant?).getD ⟨name⟩

end Key

end LooseExpr
