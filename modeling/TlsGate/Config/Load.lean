import TlsGate.Config.Error
import TlsGate.Pki.PublicKey
import TlsGate.Yaml.Document

/-!
Loading the TLS options from a file. The file is read whenever it is loaded.
-/

set_option autoImplicit false
set_option relaxedAutoImplicit false

namespace TlsGate.Config

open TlsGate.Log

/-- What loading can end with: a configuration error, or an error that is no matter of the
configuration's form. -/
inductive LoadError where
  | config (e : ConfigError)
  | emptyPath
  | nulInPath
  | unencodable
  /-- The document keeps to the rules of YAML and is not read, on account of a fault of another
  kind. -/
  | document (fault : Yaml.Fault)
  | unprintable
  | certificateVersion
  | certificateKey (fault : Pki.KeyFault)
  deriving DecidableEq, Repr

namespace LoadError

/-- The error for a file that cannot be read, given the one of the configuration. A path that is
refused before anything is read is an error of its own. -/
def ofFault (unreadable : String → ConfigError) : FileFault → LoadError
  | .nulInPath => .nulInPath
  | .unencodable => .unencodable
  | fault => .config (unreadable fault.reason)

def ofFile (path : Str) (fault : FileFault) : LoadError := ofFault (.unreadable path) fault

def ofDocument (path : Str) : Yaml.Fault → LoadError
  | .malformed => .config (.invalidYaml path (Yaml.Fault.message .malformed))
  | fault => .document fault

def ofDecode : DecodeFault → LoadError
  | .schema fault => .config (.schema fault)
  | .unprintable => .unprintable

end LoadError

def load [Yaml.Room] (fs : FileSystem) (path : Str) : List Record × Except LoadError TlsConfig :=
  if path.isEmpty then ([], .error .emptyPath)
  else match fs.read path with
    | .error fault => ([], .error (.ofFile path fault))
    | .ok content =>
      match Yaml.load content with
      | .error fault => ([], .error (.ofDocument path fault))
      | .ok document =>
        let (records, result) := decode document
        (records, result.mapError .ofDecode)

end TlsGate.Config
