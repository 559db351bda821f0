import TlsGate.Log
import TlsGate.Value

/-!
The TLS options of a configuration document, and how they are read off its value. Options are texts
in one section of the document; keys that are not known are ignored with a warning.
-/

set_option autoImplicit false
set_option relaxedAutoImplicit false

namespace TlsGate.Config

open TlsGate.Log

/-- TLS options as they are written; the empty text means that an option is not configured. -/
structure TlsConfig where
  certPath : Str := ""
  keyPath : Str := ""
  serverName : Str := ""
  clientAuth : Str := ""
  clientCas : Str := ""
  deriving DecidableEq, Repr

def sectionKey : String := "tlsConfig"

inductive Setting where
  | certPath
  | keyPath
  | serverName
  | clientAuth
  | clientCas
  deriving DecidableEq, Repr

namespace Setting

def all : List Setting := [certPath, keyPath, serverName, clientAuth, clientCas]

def key : Setting → String
  | certPath => "tlsCertPath"
  | keyPath => "tlsKeyPath"
  | serverName => "serverName"
  | clientAuth => "clientAuth"
  | clientCas => "clientCAs"

def ofKey? (key : Scalar) : Option Setting := all.find? fun setting => key = .text setting.key

end Setting

inductive SchemaFault where
  | notMapping
  | sectionNotMapping
  | notText (setting : Setting) (typeName : String)
  deriving DecidableEq, Repr

def SchemaFault.message : SchemaFault → String
  | notMapping => "Configuration document must be a mapping."
  | sectionNotMapping => "Configuration section '" ++ sectionKey ++ "' must be a mapping."
  | notText setting typeName =>
    "Configuration key " ++ sectionKey ++ "." ++ setting.key ++ " must be a string, got " ++
      typeName ++ "."

inductive DecodeFault where
  | schema (fault : SchemaFault)
  | unprintable
  deriving DecidableEq, Repr

namespace TlsConfig

def get (c : TlsConfig) : Setting → Str
  | .certPath => c.certPath
  | .keyPath => c.keyPath
  | .serverName => c.serverName
  | .clientAuth => c.clientAuth
  | .clientCas => c.clientCas

def set (c : TlsConfig) (setting : Setting) (text : Str) : TlsConfig :=
  match setting with
  | .certPath => { c with certPath := text }
  | .keyPath => { c with keyPath := text }
  | .serverName => { c with serverName := text }
  | .clientAuth => { c with clientAuth := text }
  | .clientCas => { c with clientCas := text }

end TlsConfig

def unknownKey (shown : Str) : Record :=
  ⟨.config, .warning, ("Unknown configuration key ignored: " : Str) ++ shown, none, none⟩

def warnOutside : List (Scalar × Value) → List Record × Except DecodeFault Unit
  | [] => ([], .ok ())
  | (key, _) :: rest =>
    if key.same (.text sectionKey) then warnOutside rest
    else match key.shown? with
      | none => ([], .error .unprintable)
      | some shown =>
        let (records, result) := warnOutside rest
        (unknownKey shown :: records, result)

/-- Reads the section with TLS options into options that have been read before. -/
def decodeSection (c : TlsConfig) :
    List (Scalar × Value) → List Record × Except DecodeFault TlsConfig
  | [] => ([], .ok c)
  | (key, value) :: rest =>
    match Setting.ofKey? key with
    | none =>
      match key.plain? with
      | none => ([], .error .unprintable)
      | some plain =>
        let (records, result) := decodeSection c rest
        (unknownKey (((sectionKey ++ "." : String) : Str) ++ plain) :: records, result)
    | some setting =>
      match value with
      | .scalar .null => decodeSection c rest
      | .scalar (.text text) => decodeSection (c.set setting text) rest
      | other => ([], .error (.schema (.notText setting other.typeName)))

/-- Reads the options off a document; a document without the section configures nothing. -/
def decode : Value → List Record × Except DecodeFault TlsConfig
  | .scalar .null => ([], .ok {})
  | .mapping entries =>
    match warnOutside entries with
    | (records, .error fault) => (records, .error fault)
    | (records, .ok ()) =>
      match Value.lookup (.text sectionKey) entries with
      | none => (records, .ok {})
      | some (.scalar .null) => (records, .ok {})
      | some (.mapping options) =>
        let (more, result) := decodeSection {} options
        (records ++ more, result)
      | some _ => (records, .error (.schema .sectionNotMapping))
  | _ => ([], .error (.schema .notMapping))

end TlsGate.Config
