import TlsGate.Proofs.Pki.Credential
import TlsGate.Proofs.Policy.Loading
import TlsGate.Proofs.Utf8
import TlsGate.Tls.Negotiation

/-!
How contexts come about. A context of either kind is put together of three parts: the certificates
that are trusted, what the server shows of itself, and the protocols that it offers. It is made if
each part is, and otherwise the first part that fails decides what the failure is.
-/

set_option autoImplicit false
set_option relaxedAutoImplicit false

namespace TlsGate

namespace Policy

open Config Pki

structure Moments.ReadsAs (later at' : Moments) (certPath keyPath : Str) : Prop where
  certFile : later.certFile.read certPath = at'.certFile.read certPath
  keyFile : later.keyFile.read keyPath = at'.keyFile.read keyPath
  engineCertFile : later.engineCertFile.read certPath = at'.engineCertFile.read certPath
  engineKeyFile : later.engineKeyFile.read keyPath = at'.engineKeyFile.read keyPath

theorem Moments.readsAs_at {fs fs' : FileSystem} {certPath keyPath : Str}
    (hcert : fs'.read certPath = fs.read certPath) (hkey : fs'.read keyPath = fs.read keyPath) :
    (Moments.at fs').ReadsAs (.at fs) certPath keyPath := ⟨hcert, hkey, hcert, hkey⟩

/-! ## The own certificate and its key -/

private theorem Identity.pathRefusal?_eq_some {fs : FileSystem} {path : Str} {e : LoadError}
    (h : pathRefusal? (fs.read path) = some e) : RefusesPath path e := by
  unfold pathRefusal? at h
  split at h
  · rename_i hread
    obtain rfl := Option.some.inj h
    obtain ⟨encodable, nul⟩ := FileSystem.read_eq_nul_iff.mp hread
    exact .nulInPath encodable nul
  · rename_i hread
    obtain rfl := Option.some.inj h
    exact .unencodable (FileSystem.read_eq_unencodable_iff.mp hread)
  · cases h

section Keys

variable [KeyLibrary]

/-- The key belongs to the certificate that is shown. -/
def Identity.IsPaired (i : Identity) : Prop := i.leaf.publicKey = .ok i.key.publicKey

private theorem Identity.isPaired_of_isUsable {leaf : Certificate} {others : List Certificate}
    {key : PrivateKey} (h : isUsable leaf key = true) : IsPaired ⟨leaf, others, key⟩ := by
  unfold isUsable at h
  split at h
  · rename_i found hfound
    simp only [Bool.and_eq_true, beq_iff_eq] at h
    exact hfound.trans (congrArg Except.ok h.1)
  · cases h

/-- A verifying engine takes a pair of its own reading. -/
structure Identity.IsReread (at' : Moments) (certPath keyPath : Str) (i : Identity) :
    Prop where
  chain : ∃ certFile, at'.engineCertFile.read certPath = .ok certFile ∧
    PemLines.chain? certFile = some (i.leaf, i.others)
  key : ∃ keyFile, at'.engineKeyFile.read keyPath = .ok keyFile ∧
    KeyLibrary.engineKey? keyFile = some i.key
  paired : i.IsPaired

theorem Identity.isReread_of_reread {at' : Moments} {certPath keyPath : Str} {i : Identity}
    (h : reread at' certPath keyPath = .ok i) : i.IsReread at' certPath keyPath := by
  unfold reread at h
  dsimp only at h
  split at h
  · cases h
  · split at h
    · rename_i found hfound
      obtain rfl := Except.ok.inj h
      simp only [Option.bind_eq_bind, Option.bind_eq_some_iff, Prod.exists] at hfound
      obtain ⟨certFile, hcert, leaf, others, hchain, keyFile, hkey, key, hfound, htaken⟩ := hfound
      split at htaken
      · rename_i husable
        obtain rfl := Option.some.inj htaken
        have hread {x : Except FileFault Bytes} {b : Bytes} (hx : x.toOption = some b) :
            x = .ok b := by
          cases x with
          | error fault => cases hx
          | ok content => exact congrArg Except.ok (Option.some.inj hx)
        exact ⟨⟨certFile, hread hcert, hchain⟩, ⟨keyFile, hread hkey, hfound⟩,
          isPaired_of_isUsable husable⟩
      · cases htaken
    · cases h

theorem Identity.reread_eq_ok {at' : Moments} {certPath keyPath : Str} {certFile keyFile : Bytes}
    {i : Identity} (hcert : at'.engineCertFile.read certPath = .ok certFile)
    (hkey : at'.engineKeyFile.read keyPath = .ok keyFile)
    (hchain : PemLines.chain? certFile = some (i.leaf, i.others))
    (hfound : KeyLibrary.engineKey? keyFile = some i.key) (husable : isUsable i.leaf i.key = true) :
    reread at' certPath keyPath = .ok i := by
  simp only [reread, hcert, hkey, pathRefusal?, Option.or_none, Except.toOption,
    Option.bind_eq_bind, Option.bind_some, hchain, hfound, husable, if_true]

theorem Identity.reread_eq_error {at' : Moments} {certPath keyPath : Str} {e : ContextError}
    (h : reread at' certPath keyPath = .error e) :
    e = refused certPath ∨
      ∃ f, e = .load f ∧ (RefusesPath certPath f ∨ RefusesPath keyPath f) := by
  unfold reread at h
  dsimp only at h
  split at h
  · rename_i f hrefused
    refine .inr ⟨f, (Except.error.inj h).symm, ?_⟩
    obtain hcert | ⟨-, hkey⟩ := Option.or_eq_some_iff.mp hrefused
    · exact .inl (pathRefusal?_eq_some hcert)
    · exact .inr (pathRefusal?_eq_some hkey)
  · split at h
    · cases h
    · exact .inl (Except.error.inj h).symm

theorem Identity.install_eq_ok {c : Credential} {i : Identity} (h : install c = .ok i) :
    i = ⟨c.leaf, c.others, c.key⟩ := by
  unfold install at h
  split at h
  · cases h
  · split at h
    · cases h
    · split at h
      · cases h
      · exact (Except.ok.inj h).symm

theorem Identity.install_eq_engine_iff {c : Credential} :
    install c = .error .engine ↔ PemLines.readsCertificate c.leaf = false ∨
      isUsable c.leaf c.key = true ∧ ∃ d ∈ c.others, PemLines.readsCertificate d = false := by
  unfold install
  cases hleaf : PemLines.readsCertificate c.leaf with
  | false => simp
  | true =>
    cases husable : isUsable c.leaf c.key with
    | false => simp [refused, ContextError.config]
    | true => cases hothers : c.others.all PemLines.readsCertificate <;> simp_all

theorem Identity.install_eq_error {c : Credential} {e : ContextError}
    (h : install c = .error e) : e = .engine ∨ e = refused c.certPath := by
  unfold install at h
  split at h
  · exact .inl (Except.error.inj h).symm
  · split at h
    · exact .inr (Except.error.inj h).symm
    · split at h
      · exact .inl (Except.error.inj h).symm
      · cases h

namespace SecurityPolicy

variable {at' : Moments} {p : SecurityPolicy} {certPath keyPath : Str}
variable {install : Credential → Except ContextError Identity}

theorem identity_of_no_provider (h : p.provider? = none) : p.identity at' install = .ok none := by
  simp only [identity, credential, h]

theorem identity_of_files (h : p.provider? = some (.files certPath keyPath)) :
    p.identity at' install =
      match Credential.load at'.certFile at'.keyFile certPath keyPath with
      | .error e => .error (.load e)
      | .ok c => (install c).map some := by
  simp only [identity, credential, h, Provider.credential]
  cases Credential.load at'.certFile at'.keyFile certPath keyPath <;> rfl

theorem identity_of_load (h : p.provider? = some (.files certPath keyPath)) {c : Credential}
    (hload : Credential.load at'.certFile at'.keyFile certPath keyPath = .ok c) :
    p.identity at' install = (install c).map some := by
  rw [identity_of_files h, hload]

theorem identity_eq_ok (h : p.provider? = some (.files certPath keyPath))
    {i? : Option Identity} (hi : p.identity at' install = .ok i?) :
    ∃ c i, Credential.load at'.certFile at'.keyFile certPath keyPath = .ok c ∧
      install c = .ok i ∧ i? = some i := by
  rw [identity_of_files h] at hi
  split at hi
  · cases hi
  · rename_i c hload
    obtain ⟨i, hinstall, hi⟩ := ok_of_map_eq_ok hi
    exact ⟨c, i, hload, hinstall, hi.symm⟩

theorem identity_eq_error_iff (h : p.provider? = some (.files certPath keyPath))
    {e : ContextError} :
    p.identity at' install = .error e ↔
      (∃ f, Credential.load at'.certFile at'.keyFile certPath keyPath = .error f ∧ .load f = e) ∨
      ∃ c, Credential.load at'.certFile at'.keyFile certPath keyPath = .ok c ∧
        install c = .error e := by
  rw [identity_of_files h]
  cases Credential.load at'.certFile at'.keyFile certPath keyPath with
  | error f => simp
  | ok c => cases hinstall : install c <;> simp [Except.map, hinstall]

end SecurityPolicy

end Keys

/-! ## The authorities -/

namespace SecurityPolicy

variable {p : SecurityPolicy} {e : ContextError}

def IsPoolRead (p : SecurityPolicy) : Prop :=
  ∀ pool, p.pool? = some pool → ∀ c ∈ pool.certificates, PemLines.readsCertificate c = true

def HasNoEmptyPool (p : SecurityPolicy) : Prop :=
  ∀ pool, p.pool? = some pool → pool.certificates ≠ []

theorem callbackRoots_eq_error_iff :
    p.callbackRoots = .error e ↔ e = .engine ∧ ¬ p.IsPoolRead := by
  unfold callbackRoots IsPoolRead
  cases hpool : p.pool? with
  | none => simp
  | some pool =>
    simp only [Option.some.injEq, forall_eq', ← List.all_eq_true]
    cases pool.certificates.all PemLines.readsCertificate <;> simp
    exact eq_comm

theorem verifyingRoots_eq_error_iff (hfilled : p.HasNoEmptyPool) :
    p.verifyingRoots = .error e ↔ e = casRefused ∧ ¬ p.IsPoolRead := by
  unfold verifyingRoots IsPoolRead
  cases hpool : p.pool? with
  | none => simp
  | some pool =>
    have hne : pool.certificates.isEmpty = false := by simpa using hfilled pool hpool
    simp only [hne, Option.some.injEq, forall_eq', ← List.all_eq_true]
    cases pool.certificates.all PemLines.readsCertificate <;> simp
    exact eq_comm

theorem exists_callbackRoots_iff : (∃ roots, p.callbackRoots = .ok roots) ↔ p.IsPoolRead := by
  simp only [exists_ok_iff, ne_eq, callbackRoots_eq_error_iff, not_and, not_not, forall_eq]

theorem exists_verifyingRoots_iff (hfilled : p.HasNoEmptyPool) :
    (∃ roots, p.verifyingRoots = .ok roots) ↔ p.IsPoolRead := by
  simp only [exists_ok_iff, ne_eq, verifyingRoots_eq_error_iff hfilled, not_and, not_not, forall_eq]

end SecurityPolicy

/-! ## The protocols -/

/-- A name that a protocol can have in a handshake message. -/
structure Alpn.IsName (name : String) : Prop where
  ascii : ∀ c ∈ name.toList, c.toNat < 128
  nonempty : name ≠ ""
  short : (Bytes.ofString name).length ≤ 255

instance (name : String) : Decidable (Alpn.IsName name) :=
  decidable_of_iff
    ((name.toList.all fun c => c.toNat < 128) = true ∧ name ≠ "" ∧
      (Bytes.ofString name).length ≤ 255)
    ⟨fun ⟨ascii, nonempty, short⟩ =>
        ⟨fun c hc => of_decide_eq_true (List.all_eq_true.mp ascii c hc), nonempty, short⟩,
      fun h =>
        ⟨List.all_eq_true.mpr fun c hc => decide_eq_true (h.ascii c hc), h.nonempty, h.short⟩⟩

private theorem Alpn.encode_of_isName {names : List String} (h : ∀ name ∈ names, IsName name) :
    encode names = .ok (names.map Bytes.ofString) := by
  refine if_pos ?_
  simpa [List.all_eq_true] using fun name hname => (h name hname).ascii

theorem Alpn.encode_eq_error_iff {names : List String} :
    (∃ fault, encode names = .error fault) ↔
      ∃ name ∈ names, ∃ c ∈ name.toList, ¬ c.toNat < 128 := by
  unfold encode
  split
  · rename_i hall
    simp only [List.all_eq_true, decide_eq_true_eq] at hall
    simpa using hall
  · rename_i hall
    simp only [List.all_eq_true, decide_eq_true_eq] at hall
    simpa using hall

def Alpn.wireName (name : String) : Except AlpnFault Bytes :=
  if !(name.toList.all fun c => c.toNat < 128) then .error .notAscii
  else if name.isEmpty || 255 < name.length then .error .length
  else .ok (Bytes.ofString name)

private theorem Alpn.wire_eq (names : List String) : wire names = names.mapM wireName := rfl

private theorem Alpn.wireName_of_isName {name : String} (h : IsName name) :
    wireName name = .ok (Bytes.ofString name) := by
  obtain ⟨hascii, hne, hshort⟩ := h
  rw [Bytes.length_ofString hascii] at hshort
  have hall : (name.toList.all fun c => decide (c.toNat < 128)) = true := by
    simpa [List.all_eq_true] using hascii
  have hfits : ¬ (name.isEmpty || decide (255 < name.length)) = true := by
    simpa [hne] using hshort
  simp only [wireName, hall, Bool.not_true, Bool.false_eq_true, if_false, if_neg hfits]

private theorem Alpn.wireName_eq_error_iff {name : String} :
    (∃ fault, wireName name = .error fault) ↔ ¬ IsName name := by
  constructor
  · rintro ⟨fault, hfault⟩ hname
    rw [wireName_of_isName hname] at hfault
    cases hfault
  · intro hbad
    unfold wireName
    cases hall : name.toList.all fun c => decide (c.toNat < 128) with
    | false => exact ⟨_, rfl⟩
    | true =>
      have hascii : ∀ c ∈ name.toList, c.toNat < 128 := by simpa [List.all_eq_true] using hall
      have hunfit : (name.isEmpty || decide (255 < name.length)) = true := by
        refine Classical.byContradiction fun hfits => hbad ?_
        obtain ⟨hne, hshort⟩ : name ≠ "" ∧ name.length ≤ 255 := by simpa using hfits
        exact ⟨hascii, hne, by rwa [Bytes.length_ofString hascii]⟩
      exact ⟨_, by rw [if_neg (by simp), if_pos hunfit]⟩

private theorem Alpn.wire_of_isName {names : List String} (h : ∀ name ∈ names, IsName name) :
    wire names = .ok (names.map Bytes.ofString) := by
  rw [wire_eq, mapM_eq_ok_iff, List.forall₂_map_right_iff, List.forall₂_same]
  exact fun name hname => wireName_of_isName (h name hname)

theorem Alpn.wire_eq_error_iff {names : List String} :
    (∃ fault, wire names = .error fault) ↔ ∃ name ∈ names, ¬ IsName name := by
  simp only [wire_eq, exists_mapM_eq_error_iff, wireName_eq_error_iff]

/-! ## Contexts by their parts -/

/-- The protocols of a context, if it offers any. -/
def Alpn.offered (encoding : List String → Except AlpnFault (List Bytes)) :
    Option (List String) → Except ContextError (Option (List Bytes))
  | none => .ok none
  | some names => match encoding names with
    | .ok encoded => .ok (some encoded)
    | .error fault => .error (.protocols fault)

theorem Alpn.offered_of_isName {protocols? : Option (List String)}
    (h : ∀ names, protocols? = some names → ∀ name ∈ names, IsName name) :
    offered encode protocols? = .ok (protocols?.map (·.map Bytes.ofString)) ∧
      offered wire protocols? = .ok (protocols?.map (·.map Bytes.ofString)) := by
  cases protocols? with
  | none => exact ⟨rfl, rfl⟩
  | some names =>
    simp only [offered, encode_of_isName (h names rfl), wire_of_isName (h names rfl),
      Option.map_some, and_self]

namespace SecurityPolicy

variable [KeyLibrary] {at' : Moments} {protocols? : Option (List String)} {p : SecurityPolicy}

private theorem callbackContext_eq :
    p.callbackContext at' protocols? = (do
      let (roots, names) ← p.callbackRoots
      let identity ← p.identity at' Identity.install
      let protocols ← Alpn.offered Alpn.encode protocols?
      return ⟨p.clientAuth.verifyFlags, p.clientAuth.acceptsUntrusted, names, roots, identity,
        protocols⟩) := by
  unfold callbackContext
  cases protocols? with
  | none => rfl
  | some names =>
    simp only [Alpn.offered]
    cases Alpn.encode names <;> rfl

private theorem verifyingContext_eq {verify : VerifyMode}
    (hmode : p.clientAuth.verifyMode? = some verify) :
    p.verifyingContext at' protocols? = (do
      let roots ← p.verifyingRoots
      let identity ← p.identity at' fun c => Identity.reread at' c.certPath c.keyPath
      let protocols ← Alpn.offered Alpn.wire protocols?
      return ⟨verify, roots, identity, protocols⟩) := by
  simp only [verifyingContext, hmode]
  cases protocols? with
  | none => rfl
  | some names =>
    simp only [Alpn.offered]
    cases Alpn.wire names <;> rfl

theorem callbackContext_eq_ok_iff {c : CallbackContext} :
    p.callbackContext at' protocols? = .ok c ↔
      c.flags = p.clientAuth.verifyFlags ∧ c.acceptsAny = p.clientAuth.acceptsUntrusted ∧
        p.callbackRoots = .ok (c.roots, c.names) ∧
        p.identity at' Identity.install = .ok c.identity? ∧
        Alpn.offered Alpn.encode protocols? = .ok c.protocols? := by
  rw [callbackContext_eq]
  simp only [bind_eq_ok_iff, Prod.exists, pure, Except.pure, Except.ok.injEq]
  constructor
  · rintro ⟨roots, names, hroots, identity, hidentity, protocols, hprotocols, rfl⟩
    exact ⟨rfl, rfl, hroots, hidentity, hprotocols⟩
  · rintro ⟨hflags, hany, hroots, hidentity, hprotocols⟩
    exact ⟨_, _, hroots, _, hidentity, _, hprotocols, by rw [← hflags, ← hany]⟩

theorem verifyingContext_eq_ok_iff {c : VerifyingContext} :
    p.verifyingContext at' protocols? = .ok c ↔
      p.clientAuth.verifyMode? = some c.verify ∧ p.verifyingRoots = .ok c.roots ∧
        p.identity at' (fun d => Identity.reread at' d.certPath d.keyPath) = .ok c.identity? ∧
        Alpn.offered Alpn.wire protocols? = .ok c.protocols? := by
  cases hmode : p.clientAuth.verifyMode? with
  | none => simp [verifyingContext, hmode]
  | some verify =>
    rw [verifyingContext_eq hmode]
    simp only [bind_eq_ok_iff, pure, Except.pure, Except.ok.injEq, Option.some.injEq]
    constructor
    · rintro ⟨roots, hroots, identity, hidentity, protocols, hprotocols, rfl⟩
      exact ⟨rfl, hroots, hidentity, hprotocols⟩
    · rintro ⟨rfl, hroots, hidentity, hprotocols⟩
      exact ⟨_, hroots, _, hidentity, _, hprotocols, rfl⟩

theorem exists_callbackContext_iff :
    (∃ c, p.callbackContext at' protocols? = .ok c) ↔
      p.IsPoolRead ∧ (∃ found, Alpn.offered Alpn.encode protocols? = .ok found) ∧
        ∃ i?, p.identity at' Identity.install = .ok i? := by
  rw [← exists_callbackRoots_iff]
  constructor
  · rintro ⟨c, hc⟩
    obtain ⟨-, -, hroots, hidentity, hprotocols⟩ := callbackContext_eq_ok_iff.mp hc
    exact ⟨⟨_, hroots⟩, ⟨_, hprotocols⟩, _, hidentity⟩
  · rintro ⟨⟨⟨roots, names⟩, hroots⟩, ⟨found, hprotocols⟩, i?, hidentity⟩
    exact ⟨⟨_, _, names, roots, i?, found⟩,
      callbackContext_eq_ok_iff.mpr ⟨rfl, rfl, hroots, hidentity, hprotocols⟩⟩

theorem exists_verifyingContext_iff {verify : VerifyMode}
    (hmode : p.clientAuth.verifyMode? = some verify) (hfilled : p.HasNoEmptyPool) :
    (∃ c, p.verifyingContext at' protocols? = .ok c) ↔
      p.IsPoolRead ∧ (∃ found, Alpn.offered Alpn.wire protocols? = .ok found) ∧
        ∃ i?, p.identity at' (fun d => Identity.reread at' d.certPath d.keyPath) = .ok i? := by
  rw [← exists_verifyingRoots_iff hfilled]
  constructor
  · rintro ⟨c, hc⟩
    obtain ⟨-, hroots, hidentity, hprotocols⟩ := verifyingContext_eq_ok_iff.mp hc
    exact ⟨⟨_, hroots⟩, ⟨_, hprotocols⟩, _, hidentity⟩
  · rintro ⟨⟨roots, hroots⟩, ⟨found, hprotocols⟩, i?, hidentity⟩
    exact ⟨⟨verify, roots, i?, found⟩,
      verifyingContext_eq_ok_iff.mpr ⟨hmode, hroots, hidentity, hprotocols⟩⟩

theorem callbackContext_eq_error_iff {e : ContextError} :
    p.callbackContext at' protocols? = .error e ↔
      p.callbackRoots = .error e ∨ ∃ roots, p.callbackRoots = .ok roots ∧
        (p.identity at' Identity.install = .error e ∨
          ∃ i?, p.identity at' Identity.install = .ok i? ∧
            Alpn.offered Alpn.encode protocols? = .error e) := by
  rw [callbackContext_eq]
  simp [bind_eq_error_iff, pure, Except.pure]

theorem verifyingContext_eq_error_iff {verify : VerifyMode}
    (hmode : p.clientAuth.verifyMode? = some verify) {e : ContextError} :
    p.verifyingContext at' protocols? = .error e ↔
      p.verifyingRoots = .error e ∨ ∃ roots, p.verifyingRoots = .ok roots ∧
        (p.identity at' (fun d => Identity.reread at' d.certPath d.keyPath) = .error e ∨
          ∃ i?, p.identity at' (fun d => Identity.reread at' d.certPath d.keyPath) = .ok i? ∧
            Alpn.offered Alpn.wire protocols? = .error e) := by
  rw [verifyingContext_eq hmode]
  simp [bind_eq_error_iff, pure, Except.pure]

variable {later : Moments} {certPath keyPath : Str}

theorem callbackContext_congr
    (hprovider : ∀ provider, p.provider? = some provider → provider = .files certPath keyPath)
    (hcert : later.certFile.read certPath = at'.certFile.read certPath)
    (hkey : later.keyFile.read keyPath = at'.keyFile.read keyPath) :
    p.callbackContext later protocols? = p.callbackContext at' protocols? := by
  have hidentity : p.identity later Identity.install = p.identity at' Identity.install := by
    cases hsome : p.provider? with
    | none => rw [identity_of_no_provider hsome, identity_of_no_provider hsome]
    | some provider =>
      rw [hprovider provider hsome] at hsome
      simp only [identity_of_files hsome, Credential.load, hcert, hkey]
  rw [callbackContext_eq, callbackContext_eq, hidentity]

private theorem verifyingContext_congr
    (hprovider : ∀ provider, p.provider? = some provider → provider = .files certPath keyPath)
    (h : later.ReadsAs at' certPath keyPath) :
    p.verifyingContext later protocols? = p.verifyingContext at' protocols? := by
  cases hmode : p.clientAuth.verifyMode? with
  | none => simp only [verifyingContext, hmode]
  | some verify =>
    have hidentity : p.identity later (fun c => Identity.reread later c.certPath c.keyPath) =
        p.identity at' (fun c => Identity.reread at' c.certPath c.keyPath) := by
      cases hsome : p.provider? with
      | none => rw [identity_of_no_provider hsome, identity_of_no_provider hsome]
      | some provider =>
        rw [hprovider provider hsome] at hsome
        have hload : Credential.load later.certFile later.keyFile certPath keyPath =
            Credential.load at'.certFile at'.keyFile certPath keyPath := by
          simp only [Credential.load, h.certFile, h.keyFile]
        simp only [identity_of_files hsome, hload]
        cases hcredential : Credential.load at'.certFile at'.keyFile certPath keyPath with
        | error e => rfl
        | ok c =>
          -- a credential knows its paths, so the engine reads the same two files again
          obtain ⟨-, rfl, rfl, -⟩ := Credential.load_eq_ok_iff.mp hcredential
          simp only [Identity.reread, h.engineCertFile, h.engineKeyFile]
    rw [verifyingContext_eq hmode, verifyingContext_eq hmode, hidentity]

theorem context_congr
    (hprovider : ∀ provider, p.provider? = some provider → provider = .files certPath keyPath)
    (h : later.ReadsAs at' certPath keyPath) :
    p.context later protocols? = p.context at' protocols? := by
  rw [context, context, callbackContext_congr hprovider h.certFile h.keyFile,
    verifyingContext_congr hprovider h]

end SecurityPolicy

end Policy

/-! ## The answer to a client -/

open Policy in
theorem Tls.greeting?_eq_some_iff {identity? : Option Identity}
    {protocols? : Option (List Bytes)} {offer : Offer} {greeting : Greeting} :
    greeting? identity? protocols? offer = some greeting ↔
      ∃ identity, identity? = some identity ∧ isKnownToClients identity.key.publicKey = true ∧
        ⟨offer.only?.getD .v13, protocols?.bind fun supported =>
          Alpn.select supported offer.protocols, identity.leaf⟩ = greeting := by
  simp only [greeting?, Option.bind_eq_bind, Option.bind_eq_some_iff,
    Option.ite_none_right_eq_some, Option.some.injEq]

end TlsGate
