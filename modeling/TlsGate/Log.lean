import TlsGate.Failure
import TlsGate.Text.Str

/-!
Log records: who speaks, how loud, and what is said.
-/

set_option autoImplicit false
set_option relaxedAutoImplicit false

namespace TlsGate.Log

inductive Level where
  | debug
  | info
  | warning
  | error
  deriving DecidableEq, Repr

def Level.rank : Level → Nat
  | debug => 0
  | info => 1
  | warning => 2
  | error => 3

def Level.all : List Level := [.debug, .info, .warning, .error]

def Level.name : Level → String
  | debug => "DEBUG"
  | info => "INFO"
  | warning => "WARNING"
  | error => "ERROR"

inductive Source where
  | config
  | policy
  | networking
  | server
  | http
  deriving DecidableEq, Repr

def Source.name : Source → String
  | config => "hotls.config"
  | policy => "hotls.policy"
  | networking => "hotls.networking"
  | server => "hotls.server"
  | http => "hotls.http"

/-- One record. The detail, if there is one, ends the text. -/
structure Record where
  source : Source
  level : Level
  text : Str
  detail : Option String := none
  failure : Option Failure := none
  deriving DecidableEq, Repr

def Record.message (r : Record) : Str := r.text ++ (r.detail.getD "" : Str)

def atLeast (level : Level) (records : List Record) : List Record :=
  records.filter fun r => level.rank ≤ r.level.rank

end TlsGate.Log
