import TlsGate.Proofs.Pki.Credential
import TlsGate.Proofs.Policy.Building
import TlsGate.Proofs.Policy.Contexts

/-!
How a credential is not loaded and a context is not made. Most failures are configuration errors: of
the certificate if the credential is at fault, and else of the policy. The others escape: each of
them has a cause in a path, in a certificate or in its key, and no other cause makes one.
-/

set_option autoImplicit false
set_option relaxedAutoImplicit false

namespace TlsGate

open Config Pki

/-! ## Credentials -/

namespace Pki

private theorem Certificate.allOfPem_eq_version_iff {file : Bytes} :
    allOfPem file = .error .version ↔ ∃ blocks before b after, Pem.blocks file = some blocks ∧
      blocks.filter (labels.contains ·.label) = before ++ b :: after ∧
      (∀ d ∈ before, ∃ c, ofDer d.contents = .ok c) ∧ ofDer b.contents = .error .version := by
  unfold allOfPem
  cases Pem.blocks file with
  | none => simp
  | some blocks =>
    simp only [Option.some.injEq, bind_eq_error_iff, mapM_eq_error_iff]
    constructor
    · rintro (⟨before, b, after, hsplit⟩ | ⟨found, -, hfound⟩)
      · exact ⟨blocks, before, b, after, rfl, hsplit⟩
      · cases found <;> cases hfound
    · rintro ⟨_, before, b, after, rfl, hsplit⟩
      exact .inl ⟨before, b, after, hsplit⟩

namespace Credential

/-- How the loading of a credential fails with something else than a configuration error. -/
inductive Escapes [KeyLibrary] (first second : FileSystem) (certPath keyPath : Str) :
    LoadError → Prop
  | certPath {e : LoadError} (named : keyPath ≠ "") (refused : RefusesPath certPath e) :
      Escapes first second certPath keyPath e
  | keyPath {certFile : Bytes} {e : LoadError} (readCert : first.read certPath = .ok certFile)
      (refused : RefusesPath keyPath e) : Escapes first second certPath keyPath e
  | version {certFile keyFile : Bytes} {blocks before after : List Pem.Block} {b : Pem.Block}
      (named : keyPath ≠ "") (readCert : first.read certPath = .ok certFile)
      (readKey : second.read keyPath = .ok keyFile) (found : Pem.blocks certFile = some blocks)
      (split : blocks.filter (Certificate.labels.contains ·.label) = before ++ b :: after)
      (known : ∀ d ∈ before, ∃ c, Certificate.ofDer d.contents = .ok c)
      (unknown : Certificate.ofDer b.contents = .error .version) :
      Escapes first second certPath keyPath .certificateVersion
  /-- The key of the first certificate is of a kind that the library does not know, or is not one of
  its kind. -/
  | publicKey {certFile keyFile : Bytes} {leaf : Certificate} {others : List Certificate}
      {key : PrivateKey} {fault : KeyFault} (named : keyPath ≠ "")
      (readCert : first.read certPath = .ok certFile) (readKey : second.read keyPath = .ok keyFile)
      (chain : Certificate.AreThoseOf certFile (leaf :: others))
      (hasKey : KeyLibrary.privateKey keyFile = .ok key)
      (unusable : leaf.publicKey = .error fault) :
      Escapes first second certPath keyPath (.certificateKey fault)

variable {first second : FileSystem} {certPath keyPath path : Str} {e : LoadError}
variable {certFile keyFile file : Bytes}

private theorem readChain_eq_error (h : readChain path file = .error e) :
    (∃ detail, e = .config (.invalidCertificate path detail)) ∨
      Certificate.allOfPem file = .error .version ∧ e = .certificateVersion := by
  unfold readChain at h
  split at h
  · cases h
  · exact .inl ⟨_, (Except.error.inj h).symm⟩
  · exact .inr ⟨by assumption, (Except.error.inj h).symm⟩

private theorem readChain_of_version (h : Certificate.allOfPem file = .error .version) :
    readChain path file = .error .certificateVersion := by
  rw [readChain, h]

private theorem unreadable_cases {fs : FileSystem} {fault : FileFault}
    (h : fs.read path = .error fault) :
    (∃ d, unreadable path fault = .config d ∧ d.kind = .certificate) ∨
      RefusesPath path (unreadable path fault) := by
  obtain hrefused | ⟨encodable, nul⟩ := RefusesPath.ofFault_cases h (.materialUnreadable path)
  · exact .inr hrefused
  · exact .inl ⟨_, LoadError.ofFault_of_named h encodable nul _, rfl⟩

private theorem isEmpty_eq_false (named : keyPath ≠ "") : keyPath.isEmpty = false :=
  Bool.eq_false_iff.mpr fun hempty => named ((Str.isEmpty_iff keyPath).mp hempty)

private theorem ne_empty_of_refusesPath (h : RefusesPath keyPath e) : keyPath ≠ "" := by
  rintro rfl
  cases h with
  | nulInPath encodable nul => revert nul; decide
  | unencodable stray => revert stray; decide

section Reading

variable [KeyLibrary]

private theorem readKey_eq_error (h : readKey path file = .error e) :
    ∃ detail, e = .config (.invalidKey path detail) := by
  unfold readKey at h
  split at h
  · cases h
  · exact ⟨_, (Except.error.inj h).symm⟩

private theorem ofFiles_eq_error (named : keyPath ≠ "")
    (readCert : first.read certPath = .ok certFile)
    (readKey : second.read keyPath = .ok keyFile)
    (h : ofFiles certPath keyPath certFile keyFile = .error e) :
    (∃ d, e = .config d ∧ d.kind = .certificate) ∨ Escapes first second certPath keyPath e := by
  unfold ofFiles at h
  obtain hchain | ⟨⟨leaf, others⟩, hchain, h⟩ := error_of_bind_eq_error h
  · obtain ⟨detail, rfl⟩ | ⟨hversion, rfl⟩ := readChain_eq_error hchain
    · exact .inl ⟨_, rfl, rfl⟩
    · obtain ⟨blocks, before, b, after, found, hsplit, known, unknown⟩ :=
        Certificate.allOfPem_eq_version_iff.mp hversion
      exact .inr (.version named readCert readKey found hsplit known unknown)
  · obtain hkey | ⟨key, hkey, h⟩ := error_of_bind_eq_error h
    · obtain ⟨detail, rfl⟩ := readKey_eq_error hkey
      exact .inl ⟨_, rfl, rfl⟩
    · have chain := Certificate.allOfPem_eq_ok_iff.mp (readChain_eq_ok_iff.mp hchain)
      split at h
      · rename_i fault hfault
        obtain rfl := Except.error.inj h
        exact .inr (.publicKey named readCert readKey chain (readKey_eq_ok_iff.mp hkey) hfault)
      · split at h
        · cases h
        · exact .inl ⟨_, (Except.error.inj h).symm, rfl⟩

theorem load_eq_error (h : load first second certPath keyPath = .error e) :
    (∃ d, e = .config d ∧ d.kind = .certificate) ∨ Escapes first second certPath keyPath e := by
  unfold load at h
  split at h
  · exact .inl ⟨_, (Except.error.inj h).symm, rfl⟩
  · rename_i hnamed
    have named : keyPath ≠ "" := fun hempty => hnamed ((Str.isEmpty_iff keyPath).mpr hempty)
    split at h
    · rename_i fault hcert
      obtain rfl := Except.error.inj h
      exact (unreadable_cases hcert).imp_right fun hrefused => .certPath named hrefused
    · rename_i fault hkey hcert
      obtain rfl := Except.error.inj h
      cases hread : first.read certPath with
      | error other => exact (hcert other hread).elim
      | ok certFile =>
        exact (unreadable_cases hkey).imp_right fun hrefused => .keyPath hread hrefused
    · rename_i certFile keyFile hcert hkey
      exact ofFiles_eq_error named hcert hkey h

private theorem load_of_files (named : keyPath ≠ "") (readCert : first.read certPath = .ok certFile)
    (readKey : second.read keyPath = .ok keyFile) :
    load first second certPath keyPath = ofFiles certPath keyPath certFile keyFile := by
  simp only [load, isEmpty_eq_false named, readCert, readKey, Bool.false_eq_true, if_false]

theorem Escapes.load_eq (h : Escapes first second certPath keyPath e) :
    load first second certPath keyPath = .error e ∧ ∀ d, e ≠ .config d := by
  cases h with
  | certPath named refused =>
    obtain ⟨fault, hread, hfault⟩ := refused.exists_fault first
    refine ⟨?_, refused.ne_config⟩
    simp only [load, isEmpty_eq_false named, hread, unreadable, hfault, Bool.false_eq_true,
      if_false]
  | keyPath readCert refused =>
    obtain ⟨fault, hread, hfault⟩ := refused.exists_fault second
    refine ⟨?_, refused.ne_config⟩
    simp only [load, isEmpty_eq_false (ne_empty_of_refusesPath refused), readCert, hread,
      unreadable, hfault, Bool.false_eq_true, if_false]
  | version named readCert readKey found split known unknown =>
    have hversion := Certificate.allOfPem_eq_version_iff.mpr
      ⟨_, _, _, _, found, split, known, unknown⟩
    rw [load_of_files named readCert readKey, ofFiles, readChain_of_version hversion]
    exact ⟨rfl, by rintro d ⟨⟩⟩
  | publicKey named readCert readKey chain hasKey unusable =>
    have hchain := Certificate.allOfPem_eq_ok_iff.mpr chain
    rw [load_of_files named readCert readKey, ofFiles, readChain_eq_ok_iff.mpr hchain,
      readKey_eq_ok_iff.mpr hasKey]
    exact ⟨by simp only [bind, Except.bind, unusable], by rintro d ⟨⟩⟩

end Reading

end Credential

end Pki

/-! ## Contexts -/

namespace Policy

private theorem ClientAuth.exists_verifyMode? {mode : ClientAuth}
    (h : mode.acceptsUntrusted = false) :
    ∃ verify, mode.verifyMode? = some verify := by
  cases mode <;> first | exact ⟨_, rfl⟩ | cases h

namespace SecurityPolicy

structure IsBuilt (p : SecurityPolicy) : Prop where
  pool : p.HasNoEmptyPool
  files : ∀ provider, p.provider? = some provider →
    ∃ certPath keyPath, provider = .files certPath keyPath

theorem isBuilt_of_build {fs : FileSystem} {options : TlsConfig} {p : SecurityPolicy}
    (h : (build fs options).2 = .ok p) : p.IsBuilt := by
  obtain ⟨hpool, -, hprovider, -⟩ := build_eq_ok h
  refine ⟨fun pool hsome => ?_, fun provider hsome => ?_⟩
  · by_cases hnamed : options.clientCas = ""
    · rw [poolOf_of_unnamed hnamed, hsome] at hpool
      cases hpool
    · obtain ⟨found, hfound, hload⟩ := exists_pool_of_named hnamed hpool
      obtain ⟨_, -, hfrom⟩ := TrustPool.isFrom_of_load hload
      obtain rfl := Option.some.inj (hsome.symm.trans hfound)
      exact hfrom.nonempty
  · rw [hprovider, Option.map_eq_some_iff] at hsome
    obtain ⟨path, -, rfl⟩ := hsome
    exact ⟨_, _, rfl⟩

/-- How the making of a context fails with something else than a configuration error. -/
inductive Escapes [KeyLibrary] (at' : Moments) (p : SecurityPolicy) : ContextError → Prop
  | authorities (callback : p.clientAuth.acceptsUntrusted = true) (unread : ¬ p.IsPoolRead) :
      Escapes at' p .engine
  | credential {certPath keyPath : Str} {e : LoadError} (pool : p.IsPoolRead)
      (provider : p.provider? = some (.files certPath keyPath))
      (escapes : Credential.Escapes at'.certFile at'.keyFile certPath keyPath e) :
      Escapes at' p (.load e)
  /-- An engine with a callback does not read the first certificate, or else it takes that with its
  key and does not read another one. -/
  | chain {certPath keyPath : Str} {c : Credential}
      (callback : p.clientAuth.acceptsUntrusted = true) (pool : p.IsPoolRead)
      (provider : p.provider? = some (.files certPath keyPath))
      (loaded : Credential.load at'.certFile at'.keyFile certPath keyPath = .ok c)
      (unread : PemLines.readsCertificate c.leaf = false ∨ Identity.isUsable c.leaf c.key = true ∧
        ∃ d ∈ c.others, PemLines.readsCertificate d = false) : Escapes at' p .engine

variable {at' : Moments} {protocols? : Option (List String)} {p : SecurityPolicy}
variable {e : ContextError}

/-- A context error is a configuration error of the policy. -/
def IsPolicyError (e : ContextError) : Prop :=
  ∃ d : ConfigError, e = .config d ∧ .build ∈ d.kind.lineage

private theorem isPolicyError_of_kind {d : ConfigError} (h : d.kind = .certificate) :
    IsPolicyError (.config d) :=
  ⟨d, rfl, by rw [h]; decide⟩

private theorem isPolicyError_refused (path : Str) : IsPolicyError (Identity.refused path) :=
  isPolicyError_of_kind rfl

private theorem exists_offered_iff {encoding : List String → Except AlpnFault (List Bytes)}
    {P : String → Prop}
    (h : ∀ names, (∃ fault, encoding names = .error fault) ↔ ∃ name ∈ names, ¬ P name) :
    (∃ found, Alpn.offered encoding protocols? = .ok found) ↔
      ∀ names, protocols? = some names → ∀ name ∈ names, P name := by
  cases protocols? with
  | none => simp [Alpn.offered]
  | some names =>
    have hfault := h names
    simp only [Alpn.offered, Option.some.injEq, forall_eq']
    cases hencoding : encoding names with
    | error fault => simpa [hencoding] using hfault
    | ok found => simpa [hencoding] using hfault

variable [KeyLibrary]

private theorem identity_eq_error {install : Credential → Except ContextError Identity}
    (hbuilt : p.IsBuilt) (hpool : p.IsPoolRead) (h : p.identity at' install = .error e) :
    (IsPolicyError e ∨ p.Escapes at' e) ∨
      ∃ certPath keyPath c, p.provider? = some (.files certPath keyPath) ∧
        Credential.load at'.certFile at'.keyFile certPath keyPath = .ok c ∧
        install c = .error e := by
  cases hprovider : p.provider? with
  | none =>
    rw [identity_of_no_provider hprovider] at h
    cases h
  | some provider =>
    obtain ⟨certPath, keyPath, rfl⟩ := hbuilt.files provider hprovider
    obtain ⟨f, hload, rfl⟩ | ⟨c, hload, hinstall⟩ := (identity_eq_error_iff hprovider).mp h
    · obtain ⟨d, rfl, hkind⟩ | hescapes := Credential.load_eq_error hload
      · exact .inl (.inl (isPolicyError_of_kind hkind))
      · exact .inl (.inr (.credential hpool hprovider hescapes))
    · exact .inr ⟨_, _, c, rfl, hload, hinstall⟩

theorem context_eq_error (hbuilt : p.IsBuilt)
    (hnames : ∀ names, protocols? = some names → ∀ name ∈ names, Alpn.IsName name)
    (h : p.context at' protocols? = .error e) : IsPolicyError e ∨ p.Escapes at' e := by
  obtain ⟨hencode, hwire⟩ := Alpn.offered_of_isName hnames
  unfold context at h
  split at h
  · rename_i hcallback
    -- the pool, the credential or the protocols, in this order
    obtain hroots | ⟨roots, hroots, hidentity | ⟨-, -, hprotocols⟩⟩ :=
      callbackContext_eq_error_iff.mp (error_of_map_eq_error h)
    · obtain ⟨rfl, hunread⟩ := callbackRoots_eq_error_iff.mp hroots
      exact .inr (.authorities hcallback hunread)
    · have hpool := exists_callbackRoots_iff.mp ⟨roots, hroots⟩
      obtain hcase | ⟨certPath, keyPath, c, hprovider, hload, hinstall⟩ :=
        identity_eq_error hbuilt hpool hidentity
      · exact hcase
      · obtain rfl | rfl := Identity.install_eq_error hinstall
        · exact .inr (.chain hcallback hpool hprovider hload
            (Identity.install_eq_engine_iff.mp hinstall))
        · exact .inl (isPolicyError_refused _)
    · rw [hencode] at hprotocols
      cases hprotocols
  · -- a verifying engine says itself what it does not take, so there the failures of the pool and
    -- of the pair are policy errors
    rename_i hverifying
    obtain ⟨verify, hmode⟩ := ClientAuth.exists_verifyMode? (Bool.not_eq_true _ ▸ hverifying)
    obtain hroots | ⟨roots, hroots, hidentity | ⟨-, -, hprotocols⟩⟩ :=
      (verifyingContext_eq_error_iff hmode).mp (error_of_map_eq_error h)
    · obtain ⟨rfl, -⟩ := (verifyingRoots_eq_error_iff hbuilt.pool).mp hroots
      exact .inl ⟨_, rfl, by decide⟩
    · have hpool := (exists_verifyingRoots_iff hbuilt.pool).mp ⟨roots, hroots⟩
      obtain hcase | ⟨certPath, keyPath, c, -, hload, hinstall⟩ :=
        identity_eq_error hbuilt hpool hidentity
      · exact hcase
      · -- both paths have been read before, so they are not refused
        obtain ⟨-, rfl, rfl, _, _, hcert, hkey, -⟩ := Credential.load_eq_ok_iff.mp hload
        obtain rfl | ⟨f, -, hrefused | hrefused⟩ := Identity.reread_eq_error hinstall
        · exact .inl (isPolicyError_refused _)
        · exact absurd hcert (hrefused.read_ne_ok _ _)
        · exact absurd hkey (hrefused.read_ne_ok _ _)
    · rw [hwire] at hprotocols
      cases hprotocols

theorem Escapes.context_eq (hbuilt : p.IsBuilt) (h : p.Escapes at' e)
    (protocols? : Option (List String)) :
    p.context at' protocols? = .error e ∧ e.config? = none := by
  have hcallbackContext (hcallback : p.clientAuth.acceptsUntrusted = true)
      (he : p.callbackContext at' protocols? = .error e) :
      p.context at' protocols? = .error e := by
    rw [context, if_pos hcallback, he]
    rfl
  cases h with
  | authorities hcallback hunread =>
    refine ⟨hcallbackContext hcallback (callbackContext_eq_error_iff.mpr (.inl ?_)), rfl⟩
    exact callbackRoots_eq_error_iff.mpr ⟨rfl, hunread⟩
  | chain hcallback hpool hprovider hload hunread =>
    obtain ⟨roots, hroots⟩ := exists_callbackRoots_iff.mpr hpool
    refine ⟨hcallbackContext hcallback
      (callbackContext_eq_error_iff.mpr (.inr ⟨roots, hroots, .inl ?_⟩)), rfl⟩
    exact (identity_eq_error_iff hprovider).mpr
      (.inr ⟨_, hload, Identity.install_eq_engine_iff.mpr hunread⟩)
  | @credential certPath keyPath f hpool hprovider hescapes =>
    obtain ⟨hload, hconfig⟩ := hescapes.load_eq
    have hidentity (install : Credential → Except ContextError Identity) :
        p.identity at' install = .error (.load f) :=
      (identity_eq_error_iff hprovider).mpr (.inl ⟨f, hload, rfl⟩)
    refine ⟨?_, ?_⟩
    · cases hcallback : p.clientAuth.acceptsUntrusted with
      | true =>
        obtain ⟨roots, hroots⟩ := exists_callbackRoots_iff.mpr hpool
        exact hcallbackContext hcallback
          (callbackContext_eq_error_iff.mpr (.inr ⟨roots, hroots, .inl (hidentity _)⟩))
      | false =>
        obtain ⟨verify, hmode⟩ := ClientAuth.exists_verifyMode? hcallback
        obtain ⟨roots, hroots⟩ := (exists_verifyingRoots_iff hbuilt.pool).mpr hpool
        rw [context, if_neg (by simp [hcallback]),
          (verifyingContext_eq_error_iff hmode).mpr (.inr ⟨roots, hroots, .inl (hidentity _)⟩)]
        rfl
    · cases f with
      | config d => exact absurd rfl (hconfig d)
      | _ => rfl

/-! ## When a context is made -/

def takes (at' : Moments) (p : SecurityPolicy) (c : Credential) :
    Except ContextError Identity :=
  if p.clientAuth.acceptsUntrusted then Identity.install c
  else Identity.reread at' c.certPath c.keyPath

/-- The files of the own certificate and its key fail: no credential is loaded from them, or the
engine does not take it. -/
def FilesFail (at' : Moments) (p : SecurityPolicy) : Prop :=
  ∃ certPath keyPath, p.provider? = some (.files certPath keyPath) ∧
    ((∃ e, Credential.load at'.certFile at'.keyFile certPath keyPath = .error e) ∨
      ∃ c e, Credential.load at'.certFile at'.keyFile certPath keyPath = .ok c ∧
        p.takes at' c = .error e)

def CanOffer (p : SecurityPolicy) (protocols? : Option (List String)) : Prop :=
  ∀ names, protocols? = some names → ∀ name ∈ names,
    if p.clientAuth.acceptsUntrusted then ∀ c ∈ name.toList, c.toNat < 128 else Alpn.IsName name

private theorem exists_identity_iff (hbuilt : p.IsBuilt) :
    (∃ i?, p.identity at' (p.takes at') = .ok i?) ↔ ¬ p.FilesFail at' := by
  cases hprovider : p.provider? with
  | none => simp [identity_of_no_provider hprovider, FilesFail, hprovider]
  | some provider =>
    obtain ⟨certPath, keyPath, rfl⟩ := hbuilt.files provider hprovider
    have hfail : p.FilesFail at' ↔
        (∃ e, Credential.load at'.certFile at'.keyFile certPath keyPath = .error e) ∨
          ∃ c e, Credential.load at'.certFile at'.keyFile certPath keyPath = .ok c ∧
            p.takes at' c = .error e := by
      constructor
      · rintro ⟨_, _, hsome, h⟩
        cases hprovider.symm.trans hsome
        exact h
      · exact fun h => ⟨_, _, hprovider, h⟩
    rw [identity_of_files hprovider, hfail]
    cases Credential.load at'.certFile at'.keyFile certPath keyPath with
    | error e => simp
    | ok c => cases htakes : p.takes at' c <;> simp [Except.map, htakes]

theorem exists_context_iff (hbuilt : p.IsBuilt) :
    (∃ c, p.context at' protocols? = .ok c) ↔
      p.IsPoolRead ∧ p.CanOffer protocols? ∧ ¬ p.FilesFail at' := by
  rw [← exists_identity_iff hbuilt]
  cases hcallback : p.clientAuth.acceptsUntrusted with
  | true =>
    have htakes : p.takes at' = Identity.install := by
      funext c
      simp only [takes, hcallback, if_true]
    have hoffer : (∃ found, Alpn.offered Alpn.encode protocols? = .ok found) ↔
        p.CanOffer protocols? := by
      simp only [CanOffer, hcallback, if_true]
      refine exists_offered_iff fun names => Alpn.encode_eq_error_iff.trans ?_
      simp
    rw [htakes, ← hoffer, context, if_pos hcallback, exists_map_eq_ok_iff,
      exists_callbackContext_iff]
  | false =>
    have htakes : p.takes at' = fun c => Identity.reread at' c.certPath c.keyPath := by
      funext c
      simp only [takes, hcallback, Bool.false_eq_true, if_false]
    have hoffer : (∃ found, Alpn.offered Alpn.wire protocols? = .ok found) ↔
        p.CanOffer protocols? := by
      simp only [CanOffer, hcallback, Bool.false_eq_true, if_false]
      exact exists_offered_iff fun names => Alpn.wire_eq_error_iff
    obtain ⟨verify, hmode⟩ := ClientAuth.exists_verifyMode? hcallback
    rw [htakes, ← hoffer, context, if_neg (by simp [hcallback]), exists_map_eq_ok_iff,
      exists_verifyingContext_iff hmode hbuilt.pool]

end SecurityPolicy

end Policy

end TlsGate
