import TlsGate.Config.Load
import TlsGate.Pki.Certificate
import TlsGate.Pki.Pem

/-!
Pools of certificates that are trusted to issue others. A pool is read from a file of armoured
certificates among other text; a certificate that is damaged is left out.
-/

set_option autoImplicit false
set_option relaxedAutoImplicit false

namespace TlsGate.Pki

open Config Log Text

structure TrustPool where
  certificates : List Certificate
  deriving DecidableEq, Repr

namespace Certificate

def labels : List String := ["CERTIFICATE", "X509 CERTIFICATE"]

def firstOfPem (file : Bytes) : Except CertificateFault Certificate :=
  match (Pem.blocks file).bind fun blocks => blocks.find? (labels.contains ·.label) with
  | none => .error .malformed
  | some b => ofDer b.contents

/-- All certificates of an armoured file in order; there is at least one. -/
def allOfPem (file : Bytes) : Except CertificateFault (Certificate × List Certificate) :=
  match Pem.blocks file with
  | none => .error .malformed
  | some blocks => do
    match ← (blocks.filter (labels.contains ·.label)).mapM (ofDer ·.contents) with
    | [] => .error .malformed
    | leaf :: others => .ok (leaf, others)

def toPem (c : Certificate) : Bytes := Pem.encode "CERTIFICATE" c.encoded

end Certificate

namespace TrustPool

def opening : Bytes := Bytes.ofString "-----BEGIN CERTIFICATE-----"

def closing : Bytes := Bytes.ofString "-----END CERTIFICATE-----"

/-- The parts of a file that look like certificates: from an opening line to the next closing line,
with something in between. -/
def spans (file : Bytes) : List Bytes :=
  match _h₁ : cutAtList opening file with
  | some (_, first :: rest) =>
    match _h₂ : cutAtList closing rest with
    | some (body, after) => (opening ++ first :: body ++ closing) :: spans after
    | none => []
  | _ => []
termination_by file.length
decreasing_by
  have e₁ := congrArg List.length (cutAtList_eq _h₁)
  have e₂ := congrArg List.length (cutAtList_eq _h₂)
  simp only [List.length_append, List.length_cons] at e₁ e₂
  omega

def skipped (path : Str) : Record :=
  { source := .policy
    level := .warning
    text := ("Invalid certificate in " ++ path.quoted ++ " skipped: " : String)
    detail := some "the certificate is damaged" }

/-- The certificates of a file. One that is damaged is left out with a warning, but a version that
is not known ends the reading. -/
def collect (path : Str) : List Bytes → List Record × Except LoadError (List Certificate)
  | [] => ([], .ok [])
  | span :: rest =>
    match Certificate.firstOfPem span with
    | .ok c =>
      let (records, result) := collect path rest
      (records, result.map (c :: ·))
    | .error .malformed =>
      let (records, result) := collect path rest
      (skipped path :: records, result)
    | .error .version => ([], .error .certificateVersion)

/-- Loads a pool from a file; the file has at least one certificate that can be used. -/
def load (fs : FileSystem) (path : Str) : List Record × Except LoadError TrustPool :=
  match fs.read path with
  | .error fault => ([], .error (.ofFile path fault))
  | .ok content =>
    match collect path (spans content) with
    | (records, .ok []) => (records, .error (.config (.noCertificates path)))
    | (records, .ok certificates) => (records, .ok ⟨certificates⟩)
    | (records, .error e) => (records, .error e)

def toPem (pool : TrustPool) : Bytes := pool.certificates.flatMap Certificate.toPem

end TrustPool

end TlsGate.Pki
