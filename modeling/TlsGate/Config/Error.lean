import TlsGate.Config.Schema
import TlsGate.Files
import TlsGate.Yaml.Scalar

/-!
What can be wrong with a TLS configuration: its files, its text, its options, and the certificates
and keys it names.
-/

set_option autoImplicit false
set_option relaxedAutoImplicit false

namespace TlsGate.Config

inductive ErrorKind where
  | any
  | file
  | parse
  | build
  | certificate
  | mode
  deriving DecidableEq, Repr

namespace ErrorKind

def lineage (k : ErrorKind) : List ErrorKind :=
  match k with
  | any => [any]
  | file => [file, any]
  | parse => [parse, any]
  | build => [build, any]
  | certificate => [certificate, build, any]
  | mode => [mode, build, any]

end ErrorKind

inductive ConfigError where
  | unreadable (path : Str) (reason : String)
  | invalidYaml (path : Str) (detail : String)
  | schema (fault : SchemaFault)
  | noCertificates (path : Str)
  | unusableCas (detail : String)
  | unknownMode (mode : Str)
  | keyMissing (certPath : Str)
  | materialUnreadable (path : Str) (reason : String)
  | invalidCertificate (path : Str) (detail : String)
  | invalidKey (path : Str) (detail : String)
  | mismatch (keyPath certPath : Str)
  | unusableCertificate (path : Str) (detail : String)
  deriving DecidableEq, Repr

namespace ConfigError

def kind : ConfigError → ErrorKind
  | unreadable .. => .file
  | invalidYaml .. => .parse
  | schema _ => .parse
  | noCertificates _ => .build
  | unusableCas _ => .build
  | unknownMode _ => .mode
  | keyMissing _ => .certificate
  | materialUnreadable .. => .certificate
  | invalidCertificate .. => .certificate
  | invalidKey .. => .certificate
  | mismatch .. => .certificate
  | unusableCertificate .. => .certificate

def unreadableText (path : Str) (reason : String) : String :=
  "Cannot read " ++ path.quoted ++ ": " ++ reason

def text : ConfigError → String
  | unreadable path reason => unreadableText path reason
  | invalidYaml path _ => "Invalid YAML in " ++ path.quoted ++ ": "
  | schema fault => fault.message
  | noCertificates path => "No valid certificates found in " ++ path.quoted ++ "."
  | unusableCas _ => "Cannot load client CAs: "
  | unknownMode mode => "Invalid client authentication mode: " ++ mode.quoted
  | keyMissing path => "No key configured for certificate " ++ path.quoted ++ "."
  | materialUnreadable path reason => unreadableText path reason
  | invalidCertificate path _ => "Invalid certificate in " ++ path.quoted ++ ": "
  | invalidKey path _ => "Invalid private key in " ++ path.quoted ++ ": "
  | mismatch keyPath certPath =>
    "Private key in " ++ keyPath.quoted ++ " does not match certificate in " ++ certPath.quoted ++
      "."
  | unusableCertificate path _ => "Cannot load certificate " ++ path.quoted ++ ": "

/-- The words of the party that refused something; they end the message. -/
def detail? : ConfigError → Option String
  | invalidYaml _ detail => some detail
  | unusableCas detail => some detail
  | invalidCertificate _ detail => some detail
  | invalidKey _ detail => some detail
  | unusableCertificate _ detail => some detail
  | _ => none

def message (e : ConfigError) : String := e.text ++ e.detail?.getD ""

end ConfigError

end TlsGate.Config
