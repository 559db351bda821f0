import TlsGate.Command.Application
import TlsGate.Command.Usage
import TlsGate.Http.Canned
import TlsGate.Server.Run
import TlsGate.Tls.Session

/-!
The whole command: arguments are read, the application is found, and a server for it is started as
the arguments say. A configuration that cannot be used ends the command with a status of its own.
-/

set_option autoImplicit false
set_option relaxedAutoImplicit false

namespace TlsGate.Command

open Log Server Tls

inductive Answer where
  | printed (text : String)
  | refused (text : String)
  | appMissing (e : PathError)
  | serving (o : Options) (app : Entity)
  deriving DecidableEq, Repr

def refusedStatus : Nat := 2

def configStatus : Nat := 1

/-- What the command does with its arguments; with `hasVersion` it can be asked for its version. -/
def answer (hasVersion : Bool) (arguments : List String) : Answer :=
  match parse hasVersion arguments with
  | .help => .printed (help hasVersion)
  | .version => .printed version
  | .refused fault => .refused (refusalText hasVersion fault)
  | .run o =>
    match find o.app with
    | .ok app => .serving o app
    | .error e => .appMissing e

/-- The application that an entity is. Anything but the demonstration application fails when it is
called with a request. -/
def applicationOf (app : Entity) : Http.Application Unit where
  answer r state :=
    if app = .function Catalog.helloHome "application" then
      (.response (Http.hello r.method r.target r.version), state)
    else (.raised "TypeError", state)

def Options.settings (o : Options) : Settings :=
  { address := o.address, protocols? := some Http.protocols }

def serve [Yaml.Room] [Pki.KeyLibrary] {ε : Type} (stack : Stack ε)
    (steps : Channel ε → Nat) (o : Options) (app : Entity)
    (network : Network) (fs : FileSystem) (happenings : List Step) : History ε Unit :=
  let handler := httpHandler stack.engine (applicationOf app) Http.defaultBodyLimit steps
  History.of stack handler network fs o.settings (.configured (o.tlsConfig?.map Str.ofString)) ()
    happenings

inductive Ending where
  | served
  | exited (status : Nat)
  | escaped (e : StartError)
  deriving DecidableEq, Repr

def escapedStatus : Nat := 1

def Ending.status : Ending → Nat
  | served => 0
  | exited status => status
  | escaped _ => escapedStatus

/-- How the command ends, given how its server has started. A configuration error has been logged
when the configuration was loaded, and is not told again. -/
def ending (begun : Start) : Ending :=
  match begun.result with
  | .ok _ => .served
  | .error (.load (.config _)) => .exited configStatus
  | .error e => .escaped e

def Options.shown (o : Options) (records : List Record) : List Record :=
  Log.atLeast o.logLevel records

end TlsGate.Command
