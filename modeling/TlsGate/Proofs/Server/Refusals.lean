import TlsGate.Proofs.Policy.Failures
import TlsGate.Proofs.Policy.Pairing
import TlsGate.Proofs.Server.FailClosed

/-!
What a server says of a connection that it refuses before the handshake. A policy error is a warning
that the policy is not valid. A failure that escapes is told as if the handshake had failed,
although the files of the server are at fault and the client is not.
-/

set_option autoImplicit false
set_option relaxedAutoImplicit false

namespace TlsGate.Server

open Config Log Pki Policy SecurityPolicy Tls

section Told

variable [Yaml.Room] [KeyLibrary]

private theorem receive_of_no_context {ε τ : Type} {stack : Stack ε} {handler : Handler ε τ}
    {source : PolicySource} {protocols? : Option (List String)} {files : FileSystem} {passed : Nat}
    {state : τ} {a : Arrival} {p : SecurityPolicy} {e : ContextError}
    (hpolicy : (source.policy files).2 = .ok p)
    (hcontext : p.context (.at files) protocols? = .error e) :
    receive stack handler protocols? (.secured source) files passed state a =
      ⟨(source.policy files).1 ++ [Refusal.record a.remote? (.context e)], none,
        .clear a.transport.close, .error (.inl (.context e)), passed, state⟩ := by
  have hpass : (Gate.secured source).pass stack protocols? files a =
      ⟨(source.policy files).1, .error (.context e, a.transport)⟩ := by
    simp only [Gate.pass]
    split
    · rename_i e' hfound
      rw [hfound] at hpolicy
      cases hpolicy
    · rename_i records p' hfound
      rw [hfound] at hpolicy
      obtain rfl := Except.ok.inj hpolicy
      rw [hcontext, hfound]
  rw [receive, hpass]
  rfl

/-- Why the credential of a policy that was built is not loaded, why no context is made for names of
protocols that can be offered, and what is logged of the connection then. The provider fails with an
error of the certificate and the policy with one of the policy unless the failure escapes; and every
cause of an escape makes one. A connection is told to have been refused for a policy that is not
valid if the failure is a configuration error, and for a handshake that has failed if it escapes. -/
theorem refuses_by_cause (fs : FileSystem) (options : TlsConfig) (p : SecurityPolicy)
    (hbuild : (build fs options).2 = .ok p) (protocols? : Option (List String))
    (hnames : ∀ names, protocols? = some names → ∀ name ∈ names, Alpn.IsName name) :
    (∀ provider first second, p.provider? = some provider →
        (∀ e, provider.credential first second = .error e →
          (∃ d, e = .config d ∧ d.kind = .certificate) ∨
            Credential.Escapes first second options.certPath options.keyPath e) ∧
        ∀ e, Credential.Escapes first second options.certPath options.keyPath e →
          provider.credential first second = .error e ∧ ∀ d, e ≠ .config d) ∧
      (∀ at' e, p.context at' protocols? = .error e → IsPolicyError e ∨ p.Escapes at' e) ∧
      (∀ at' e, p.Escapes at' e → p.context at' protocols? = .error e ∧ e.config? = none) ∧
      ∀ (ε τ : Type) (stack : Stack ε) (handler : Handler ε τ) (source : PolicySource)
        (files : FileSystem) (passed : Nat) (state : τ) (a : Arrival) (e : ContextError),
        (source.policy files).2 = .ok p → p.context (.at files) protocols? = .error e →
          (receive stack handler protocols? (.secured source) files passed state a).given? = none ∧
          (∀ d, e = .config d →
            (receive stack handler protocols? (.secured source) files passed state a).records =
              (source.policy files).1 ++
                [⟨.networking, .warning, ("Connection from " ++ Remote.shown a.remote? ++
                  " rejected, TLS policy is not valid: " ++ d.text : String), d.detail?, none⟩]) ∧
          (p.Escapes (.at files) e →
            (receive stack handler protocols? (.secured source) files passed state a).records =
              (source.policy files).1 ++
                [⟨.networking, .info, ("TLS handshake with " ++ Remote.shown a.remote? ++
                  " failed: " : String), some "no context", none⟩]) := by
  have hbuilt := isBuilt_of_build hbuild
  refine ⟨fun provider first second hprovider => ?_,
    fun at' e he => context_eq_error hbuilt hnames he, fun at' e he => he.context_eq hbuilt _, ?_⟩
  · obtain rfl := provider_of_build hbuild provider hprovider
    exact ⟨fun e he => Credential.load_eq_error he, fun e he => he.load_eq⟩
  · intro ε τ stack handler source files passed state a e hpolicy hcontext
    rw [receive_of_no_context hpolicy hcontext]
    refine ⟨rfl, ?_, fun hescapes => ?_⟩
    · rintro d rfl
      rfl
    · obtain ⟨-, hconfig⟩ := hescapes.context_eq hbuilt protocols?
      simp only [Refusal.record, hconfig, Refusal.record.failed]

end Told

local instance refusalRoom : Yaml.Room := .ofCalls 960

local instance refusalKeys : KeyLibrary := .standard

def outdated : FileSystem :=
  Sample.files (Pem.encode "CERTIFICATE" (Sample.once.certificateDer 6 [])) Sample.once.keyFile

private theorem outdated_escapes : Credential.Escapes outdated outdated "server.crt" "server.key"
    .certificateVersion := by
  have hfound := Pem.blocks_encode (by decide : "CERTIFICATE" ≠ "") Pem.dash_not_mem_label
    (Sample.once.certificateDer 6 [])
  have hsplit : [(⟨"CERTIFICATE", [], Sample.once.certificateDer 6 []⟩ : Pem.Block)].filter
      (Certificate.labels.contains ·.label) = [] ++ ⟨"CERTIFICATE", [], _⟩ :: [] := rfl
  exact .version (by decide) (Sample.files_read_cert _ _) (Sample.files_read_key _ _) hfound hsplit
    nofun (by decide +kernel)

def idle : Handler Unit Unit := ⟨fun _ channel _ => ⟨[], .ok (), channel, ()⟩⟩

private theorem isName_h2 :
    ∀ names, some ["h2"] = some names → ∀ name ∈ names, Alpn.IsName name := by
  rintro names ⟨⟩
  decide

/-- If the certificate is missing, the policy is told to be not valid; and one of an unknown version
makes a context fail with what escapes. -/
theorem refuses_by_cause_missing :
    ((build {} ownOptions).2 = .ok ownPolicy ∧
        ∀ names, some ["h2"] = some names → ∀ name ∈ names, Alpn.IsName name) ∧
      (receive readyStack idle (some ["h2"]) (.secured (.fixed ownPolicy)) {} 0 ()
        { transport := {} }).records =
          [⟨.networking, .warning, "Connection from None rejected, TLS policy is not valid: " ++
            "Cannot read 'server.crt': No such file or directory", none, none⟩] ∧
      ownPolicy.context (.at outdated) (some ["h2"]) = .error (.load .certificateVersion) := by
  have hbuild : (build {} ownOptions).2 = .ok ownPolicy := by decide
  obtain ⟨-, -, hescapes, htold⟩ := refuses_by_cause {} ownOptions ownPolicy hbuild _ isName_h2
  have hmissing : ownPolicy.context (.at {}) (some ["h2"]) =
      .error (.config (.materialUnreadable "server.crt" "No such file or directory")) := by
    decide +kernel
  refine ⟨⟨hbuild, isName_h2⟩, ?_, ?_⟩
  · exact (htold Unit Unit readyStack idle (.fixed ownPolicy) {} 0 () { transport := {} } _ rfl
      hmissing).2.1 _ rfl
  · have hpool : ownPolicy.IsPoolRead := nofun
    exact (hescapes (.at outdated) _ (.credential hpool rfl outdated_escapes)).1

/-- A certificate of an unknown version escapes the provider and the context, and the connection is
told to have failed in the handshake. -/
theorem escapes_outdated :
    (build {} ownOptions).2 = .ok ownPolicy ∧
      (∀ names, some ["h2"] = some names → ∀ name ∈ names, Alpn.IsName name) ∧
      ownPolicy.provider? = some (.files "server.crt" "server.key") ∧
      (Provider.files "server.crt" "server.key").credential outdated outdated =
        .error .certificateVersion ∧
      ownPolicy.context (.at outdated) (some ["h2"]) = .error (.load .certificateVersion) ∧
      ¬ IsPolicyError (.load .certificateVersion) ∧
      (receive readyStack idle (some ["h2"]) (.secured (.fixed ownPolicy)) outdated 0 ()
        { transport := {} }).records =
          [⟨.networking, .info, "TLS handshake with None failed: ", some "no context", none⟩] := by
  have hbuild : (build {} ownOptions).2 = .ok ownPolicy := by decide
  have hpool : ownPolicy.IsPoolRead := nofun
  have hescapes : ownPolicy.Escapes (.at outdated) (.load .certificateVersion) :=
    .credential hpool rfl outdated_escapes
  have hcontext := (hescapes.context_eq (isBuilt_of_build hbuild) (some ["h2"])).1
  have hpolicy : ((PolicySource.fixed ownPolicy).policy outdated).2 = .ok ownPolicy := rfl
  refine ⟨hbuild, isName_h2, rfl, outdated_escapes.load_eq.1, hcontext, nofun, ?_⟩
  rw [receive_of_no_context hpolicy hcontext]
  decide

end TlsGate.Server
