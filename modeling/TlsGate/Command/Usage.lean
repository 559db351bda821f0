import TlsGate.Command.Arguments
import TlsGate.Text.Quoted

/-!
What the command prints about itself: how it is used, what its options mean, and why arguments are
refused. The texts are laid out for 80 columns.
-/

set_option autoImplicit false
set_option relaxedAutoImplicit false

namespace TlsGate.Command

open Text

def program : String := "hotls"

def versionText : String := "0.1"

def lines (l : List String) : String := String.join (l.map (· ++ "\n"))

def choices : Setting → List String
  | .logLevel => Log.Level.all.map Log.Level.name
  | .loop => EventLoop.all.map EventLoop.name
  | _ => []

def placeholder (s : Setting) : String :=
  match s with
  | .app => "APP"
  | .tlsConfig => "PATH"
  | _ => "\x7b" ++ ",".intercalate (choices s) ++ "\x7d"

def settingText (s : Setting) : String := s.flag ++ " " ++ placeholder s

def usage (hasVersion : Bool) : String :=
  let indent := "             "
  let version := if hasVersion then " [--version]" else ""
  lines [
    "usage: " ++ program ++ " [-h]" ++ version ++ " [" ++ settingText .app ++ "] [" ++
      settingText .tlsConfig ++ "]",
    indent ++ "[" ++ settingText .logLevel ++ "]",
    indent ++ "[" ++ settingText .loop ++ "]",
    indent ++ "ADDRESS"]

/-- One entry of the help: the first line of the explanation stands beside what it explains if there
is room, and the others below it. -/
def helpEntry (subject : String) (explanation : List String) : List String :=
  let indent := String.ofList (List.replicate 24 ' ')
  let head := "  " ++ subject
  match explanation with
  | first :: others =>
    if head.length ≤ 22 then
      (head ++ String.ofList (List.replicate (24 - head.length) ' ') ++ first) ::
        others.map (indent ++ ·)
    else head :: (first :: others).map (indent ++ ·)
  | [] => [head]

def Setting.explanation : Setting → List String
  | app => ["Application in a MODULE_NAME:VARIABLE_NAME format."]
  | tlsConfig =>
    ["Path to a YAML file with TLS configuration.",
      "Connections are insecure without it. The file is read",
      "again for every TLS handshake."]
  | logLevel => ["Logging level."]
  | loop => ["Event loop (anyio backend) to use."]

def description : String := "Starts an HTTP server, secured using TLS if configured."

/-- The help. The command that has a version also has a description. -/
def help (hasVersion : Bool) : String :=
  usage hasVersion ++ lines (
    (if hasVersion then ["", description] else []) ++
    ["", "positional arguments:"] ++
    helpEntry "ADDRESS" ["Address to listen at in a [HOST]:PORT format."] ++
    ["", "options:"] ++
    helpEntry "-h, --help" ["show this help message and exit"] ++
    (if hasVersion then helpEntry "--version" ["show program's version number and exit"] else []) ++
    Setting.all.flatMap fun s => helpEntry (settingText s) s.explanation)

def version : String := lines [program ++ " " ++ versionText]

def Fault.message : Fault → String
  | valueMissing s => "argument " ++ s.flag ++ ": expected one argument"
  | unknownChoice s value =>
    "argument " ++ s.flag ++ ": invalid choice: " ++ quoted value ++ " (choose from " ++
      ", ".intercalate ((choices s).map quoted) ++ ")"
  | valueIgnored f value =>
    "argument " ++ f.shown ++ ": ignored explicit argument " ++ quoted value
  | badAddress value => "argument ADDRESS: invalid parse value: " ++ quoted value
  | addressMissing => "the following arguments are required: ADDRESS"
  | unrecognized arguments => "unrecognized arguments: " ++ " ".intercalate arguments

def refusalText (hasVersion : Bool) (fault : Fault) : String :=
  usage hasVersion ++ lines [program ++ ": error: " ++ fault.message]

end TlsGate.Command
