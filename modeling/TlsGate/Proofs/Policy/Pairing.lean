import TlsGate.Proofs.Pki.Credential
import TlsGate.Proofs.Policy.Admission
import TlsGate.Proofs.Policy.Building
import TlsGate.Proofs.Policy.Contexts

/-!
The own certificate and its key. The files of a server are read at several moments while a context
is made, and they may be replaced in between. Whatever stands in them at each moment, a context that
is made has a key that belongs to the certificate it shows.
-/

set_option autoImplicit false
set_option relaxedAutoImplicit false

namespace TlsGate.Policy

open Config Pki Tls

namespace SecurityPolicy

variable {at' : Moments} {protocols? : Option (List String)} {p : SecurityPolicy}
variable {certPath keyPath : Str}

theorem provider_of_build {fs : FileSystem} {options : TlsConfig}
    (h : (build fs options).2 = .ok p) (provider : Provider)
    (hprovider : p.provider? = some provider) :
    provider = .files options.certPath options.keyPath := by
  obtain ⟨-, -, hfiles, -⟩ := build_eq_ok h
  rw [hfiles, Option.map_eq_some_iff] at hprovider
  obtain ⟨path, hpath, rfl⟩ := hprovider
  unfold filled? at hpath
  split at hpath
  · cases hpath
  · obtain rfl := Option.some.inj hpath
    rfl

section Showing

variable [KeyLibrary]

theorem callbackContext_identity (hprovider : p.provider? = some (.files certPath keyPath))
    {context : CallbackContext} (h : p.callbackContext at' protocols? = .ok context) :
    ∃ c, Credential.load at'.certFile at'.keyFile certPath keyPath = .ok c ∧
      context.identity? = some ⟨c.leaf, c.others, c.key⟩ := by
  obtain ⟨-, -, -, hidentity, -⟩ := callbackContext_eq_ok_iff.mp h
  obtain ⟨c, i, hload, hinstall, hi⟩ := identity_eq_ok hprovider hidentity
  exact ⟨c, hload, by rw [hi, Identity.install_eq_ok hinstall]⟩

theorem verifyingContext_identity (hprovider : p.provider? = some (.files certPath keyPath))
    {context : VerifyingContext} (h : p.verifyingContext at' protocols? = .ok context) :
    ∃ c i, Credential.load at'.certFile at'.keyFile certPath keyPath = .ok c ∧
      i.IsReread at' certPath keyPath ∧ context.identity? = some i := by
  obtain ⟨-, -, hidentity, -⟩ := verifyingContext_eq_ok_iff.mp h
  obtain ⟨c, i, hload, hreread, hi⟩ := identity_eq_ok hprovider hidentity
  obtain ⟨-, rfl, rfl, -⟩ := Credential.load_eq_ok_iff.mp hload
  exact ⟨c, i, hload, Identity.isReread_of_reread hreread, hi⟩

/-- Whatever stands in the files of the own certificate and its key at each of the moments at which
they are read, every context that is made has a certificate to show and the key that belongs to it.
An engine with a callback shows what was loaded: the certificates of the file in their order with
the key of the other file, whatever becomes of the files afterwards. A verifying engine shows a pair
that it has read itself. -/
theorem serves_pair (fs : FileSystem) (options : TlsConfig) (p : SecurityPolicy)
    (hbuild : (build fs options).2 = .ok p) (provider : Provider)
    (hprovider : p.provider? = some provider) (at' : Moments) (protocols? : Option (List String)) :
    (∀ context, p.Makes at' protocols? context →
        ∃ identity, context.identity? = some identity ∧ identity.IsPaired ∧
          ∀ offer greeting, context.greeting? offer = some greeting →
            greeting.shown = identity.leaf) ∧
      (∀ context, p.callbackContext at' protocols? = .ok context →
        ∃ credential certFile keyFile,
          provider.credential at'.certFile at'.keyFile = .ok credential ∧
            context.identity? = some ⟨credential.leaf, credential.others, credential.key⟩ ∧
            at'.certFile.read options.certPath = .ok certFile ∧
            at'.keyFile.read options.keyPath = .ok keyFile ∧ credential.IsOf certFile keyFile ∧
            ∀ later : Moments, later.certFile = at'.certFile → later.keyFile = at'.keyFile →
              p.callbackContext later protocols? = .ok context) ∧
      ∀ context, p.verifyingContext at' protocols? = .ok context →
        ∃ identity, context.identity? = some identity ∧
          identity.IsReread at' options.certPath options.keyPath := by
  have hfiles := provider_of_build hbuild
  obtain rfl := hfiles provider hprovider
  refine ⟨fun context hmakes => ?_, fun context hcontext => ?_, fun context hcontext => ?_⟩
  · have hpaired : ∃ identity, context.identity? = some identity ∧ identity.IsPaired := by
      obtain ⟨c, rfl, hcontext⟩ | ⟨c, rfl, hcontext⟩ := makes_iff.mp hmakes
      · obtain ⟨credential, hload, hidentity⟩ := callbackContext_identity hprovider hcontext
        obtain ⟨-, -, -, _, _, -, -, hof⟩ := Credential.load_eq_ok_iff.mp hload
        exact ⟨_, hidentity, hof.paired⟩
      · obtain ⟨-, identity, -, hreread, hidentity⟩ := verifyingContext_identity hprovider hcontext
        exact ⟨identity, hidentity, hreread.paired⟩
    obtain ⟨identity, hidentity, hpaired⟩ := hpaired
    refine ⟨identity, hidentity, hpaired, fun offer greeting hgreeting => ?_⟩
    obtain ⟨shown, hshown, -, rfl⟩ := greeting?_eq_some_iff.mp hgreeting
    obtain rfl := Option.some.inj (hshown.symm.trans hidentity)
    rfl
  · obtain ⟨credential, hload, hidentity⟩ := callbackContext_identity hprovider hcontext
    obtain ⟨-, -, -, certFile, keyFile, hcert, hkey, hof⟩ := Credential.load_eq_ok_iff.mp hload
    exact ⟨credential, certFile, keyFile, hload, hidentity, hcert, hkey, hof,
      fun later hlater hlaterKey =>
        (callbackContext_congr hfiles (by rw [hlater]) (by rw [hlaterKey])).trans hcontext⟩
  · obtain ⟨-, identity, -, hreread, hidentity⟩ := verifyingContext_identity hprovider hcontext
    exact ⟨identity, hidentity, hreread⟩

end Showing

local instance pairKeys : KeyLibrary := .standard

def ownOptions : TlsConfig := { certPath := "server.crt", keyPath := "server.key" }

def ownPolicy : SecurityPolicy := { provider? := some (.files "server.crt" "server.key") }

def replaced : Moments where
  certFile := Sample.files Sample.once.certFile Sample.once.keyFile
  keyFile := Sample.files Sample.once.certFile Sample.once.keyFile
  engineCertFile := Sample.files Sample.twice.certFile Sample.twice.keyFile
  engineKeyFile := Sample.files Sample.twice.certFile Sample.twice.keyFile

private theorem reread_replaced : Identity.reread replaced "server.crt" "server.key" =
    .ok ⟨Sample.twiceLeaf, [], Sample.twice.key⟩ :=
  Identity.reread_eq_ok (Sample.files_read_cert _ _) (Sample.files_read_key _ _)
    (by decide +kernel) (by decide +kernel) (by decide +kernel)

/-- If both files are replaced after they have been read once, an engine with a callback shows the
old pair and a verifying engine the new one. -/
theorem serves_pair_replaced :
    ((build {} ownOptions).2 = .ok ownPolicy ∧
        ownPolicy.provider? = some (.files "server.crt" "server.key")) ∧
      (∃ context, ownPolicy.callbackContext replaced none = .ok context ∧
        context.identity? = some ⟨Sample.onceLeaf, [], Sample.once.key⟩ ∧
        Identity.IsPaired ⟨Sample.onceLeaf, [], Sample.once.key⟩ ∧
        ownPolicy.callbackContext { replaced with engineCertFile := {} } none = .ok context) ∧
      ∃ context, ownPolicy.verifyingContext replaced none = .ok context ∧
        context.identity? = some ⟨Sample.twiceLeaf, [], Sample.twice.key⟩ ∧
        Identity.IsPaired ⟨Sample.twiceLeaf, [], Sample.twice.key⟩ := by
  have hbuild : (build {} ownOptions).2 = .ok ownPolicy := by decide
  have hload : Credential.load replaced.certFile replaced.keyFile "server.crt" "server.key" =
      .ok Sample.onceCredential :=
    Sample.load_once _ _ (Sample.files_read_cert _ _) (Sample.files_read_key _ _)
  obtain ⟨hpaired, hkept, -⟩ := serves_pair {} ownOptions ownPolicy hbuild _ rfl replaced none
  refine ⟨⟨hbuild, rfl⟩, ?_, ?_⟩
  · have hcontext : ownPolicy.callbackContext replaced none = .ok
        ⟨[], false, [], .nothing, some ⟨Sample.onceLeaf, [], Sample.once.key⟩, none⟩ := by
      rw [callbackContext_eq_ok_iff, identity_of_load rfl hload]
      exact ⟨rfl, rfl, rfl, by decide +kernel, rfl⟩
    obtain ⟨identity, hidentity, hpair, -⟩ := hpaired _ (.callback hcontext)
    obtain rfl := Option.some.inj hidentity
    obtain ⟨-, -, -, -, -, -, -, -, hlater⟩ := hkept _ hcontext
    exact ⟨_, hcontext, rfl, hpair, hlater _ rfl rfl⟩
  · have hcontext : ownPolicy.verifyingContext replaced none = .ok
        ⟨.never, .nothing, some ⟨Sample.twiceLeaf, [], Sample.twice.key⟩, none⟩ := by
      rw [verifyingContext_eq_ok_iff, identity_of_load rfl hload]
      exact ⟨rfl, rfl, congrArg (Except.map some) reread_replaced, rfl⟩
    obtain ⟨identity, hidentity, hpair, -⟩ := hpaired _ (.verifying hcontext)
    obtain rfl := Option.some.inj hidentity
    exact ⟨_, hcontext, rfl, hpair⟩

section Unchanged

variable {fs : FileSystem}

theorem reread_once (hcert : fs.read "server.crt" = .ok Sample.once.certFile)
    (hkey : fs.read "server.key" = .ok Sample.once.keyFile) :
    Identity.reread (.at fs) "server.crt" "server.key" =
      .ok ⟨Sample.onceLeaf, [], Sample.once.key⟩ :=
  Identity.reread_eq_ok hcert hkey (by decide +kernel) (by decide +kernel) (by decide +kernel)

theorem verifyingContext_once (hcert : fs.read "server.crt" = .ok Sample.once.certFile)
    (hkey : fs.read "server.key" = .ok Sample.once.keyFile) {offered? : Option (List Bytes)}
    (hoffered : Alpn.offered Alpn.wire protocols? = .ok offered?) :
    ownPolicy.verifyingContext (.at fs) protocols? =
      .ok ⟨.never, .nothing, some ⟨Sample.onceLeaf, [], Sample.once.key⟩, offered?⟩ := by
  rw [verifyingContext_eq_ok_iff, identity_of_load rfl (Sample.load_once fs fs hcert hkey)]
  exact ⟨rfl, rfl, congrArg (Except.map some) (reread_once hcert hkey), hoffered⟩

end Unchanged

end SecurityPolicy

end TlsGate.Policy
