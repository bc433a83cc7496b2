import LooseExpr.Text.Blank
/-!
# Scopes

The places a variable can live in.  A name without a scope (`Scope.undefined`) is looked for in several of them, in the
order `Scope.searchOrder`.
-/
namespace LooseExpr

inductive Scope where
  | undefined
  | vars
  | arguments
  | locals
  | this
  | url
  | form
  | cgi
  | cookie
  | client
  | request
  | session
  | application
  | server
deriving DecidableEq, Inhabited

namespace Scope

/-- The scopes that a variable can be stored in. -/
def named : List Scope :=
  [vars, arguments, locals, this, url, form, cgi, cookie, client, request, session, application, server]

def name : Scope → String
  | undefined => "undefined"
  | vars => "variables"
  | arguments => "arguments"
  | locals => "local"
  | this => "this"
  | url => "url"
  | form => "form"
  | cgi => "cgi"
  | cookie => "cookie"
  | client => "client"
  | request => "request"
  | session => "session"
  | application => "application"
  | server => "server"

/-- The name with a capital, as it stands in emitted code. -/
def title : Scope → String
  | undefined => "Undefined"
  | vars => "Variables"
  | arguments => "Arguments"
  | locals => "Local"
  | this => "This"
  | url => "Url"
  | form => "Form"
  | cgi => "Cgi"
  | cookie => "Cookie"
  | client => "Client"
  | request => "Request"
  | session => "Session"
  | application => "Application"
  | server => "Server"

def ofName? (s : String) : Option Scope := named.find? fun scope => Text.asciiLower s == scope.name

/-- Where a name without a scope is looked for. -/
def searchOrder : List Scope := [locals, arguments, vars, cgi, url, form, cookie, client]

/-- The place of a scope among the structs of a session; a missing scope means the variables. -/
def slot : Scope → Nat
  | undefined => 0
  | vars => 0
  | arguments => 1
  | locals => 2
  | this => 3
  | url => 4
  | form => 5
  | cgi => 6
  | cookie => 7
  | client => 8
  | request => 9
  | session => 10
  | application => 11
  | server => 12

end Scope

end LooseExpr
