import TlsGate.Proofs.Pki.Bundle
import TlsGate.Proofs.Yaml.Keys

/-!
What a policy keeps of a document. A policy demands no less than the document does: a mode and
authorities that are named are those of the policy, or there is no policy. The files of the own
certificate are not read for it.
-/

set_option autoImplicit false
set_option relaxedAutoImplicit false

namespace TlsGate

open Config Log Pki

/-! ## Options of a document -/

namespace Config

variable {document : Value} {setting : Setting} {text : Str}

def Omits (document : Value) (setting : Setting) : Prop :=
  valueOf? document setting = none ∨ valueOf? document setting = some (.scalar .null) ∨
    valueOf? document setting = some (.scalar (.text ""))

/-- A document has a text for an option that is not empty. -/
structure Names (document : Value) (setting : Setting) (text : Str) : Prop where
  value : valueOf? document setting = some (.scalar (.text text))
  nonempty : text ≠ ""

private theorem Names.written_eq (h : Names document setting text) :
    written document setting = text := by
  rw [written, h.value]
  rfl

private theorem Omits.written_eq (h : Omits document setting) : written document setting = "" := by
  rcases h with h | h | h <;> rw [written, h] <;> rfl

private theorem isSetting_of_valueOf? (fits : FitsSchema document) {value : Value}
    (h : valueOf? document setting = some value) : isSetting value = true := by
  cases fits with
  | null => cases h
  | unset absent =>
    rw [valueOf?, absent] at h
    cases h
  | emptied found =>
    rw [valueOf?, found] at h
    cases h
  | options found fits =>
    rw [valueOf?, found] at h
    exact fits setting value h

private theorem omits_or_names (fits : FitsSchema document) (setting : Setting) :
    Omits document setting ∨ Names document setting (written document setting) := by
  cases hvalue : valueOf? document setting with
  | none => exact .inl (.inl hvalue)
  | some value =>
    have hsetting := isSetting_of_valueOf? fits hvalue
    unfold isSetting at hsetting
    split at hsetting
    · exact .inl (.inr (.inl hvalue))
    · rename_i text
      by_cases hempty : text = ""
      · subst hempty
        exact .inl (.inr (.inr hvalue))
      · have hwritten : written document setting = text := by
          rw [written, hvalue]
          rfl
        exact .inr ⟨hwritten ▸ hvalue, hwritten ▸ hempty⟩
    · cases hsetting

private theorem omits_iff (fits : FitsSchema document) :
    Omits document setting ↔ written document setting = "" := by
  refine ⟨Omits.written_eq, fun hempty => ?_⟩
  exact (omits_or_names fits setting).resolve_right fun hnames => hnames.nonempty hempty

private theorem names_iff (fits : FitsSchema document) :
    Names document setting text ↔ written document setting = text ∧ text ≠ "" := by
  refine ⟨fun h => ⟨h.written_eq, h.nonempty⟩, ?_⟩
  rintro ⟨rfl, hne⟩
  exact (omits_or_names fits setting).resolve_left fun homits => hne homits.written_eq

private theorem forall_names_iff (fits : FitsSchema document) {P : Str → Prop} :
    (∀ text, Names document setting text → P text) ↔
      (written document setting ≠ "" → P (written document setting)) := by
  constructor
  · intro h hne
    exact h _ ((names_iff fits).mpr ⟨rfl, hne⟩)
  · intro h text hnames
    obtain ⟨rfl, hne⟩ := (names_iff fits).mp hnames
    exact h hne

end Config

namespace Pki.TrustPool

structure IsFrom (content : Bytes) (pool : TrustPool) : Prop where
  nonempty : pool.certificates ≠ []
  found : ∀ c ∈ pool.certificates, ∃ body, opening ++ body ++ closing <:+: content ∧
    Certificate.firstOfPem (opening ++ body ++ closing) = .ok c

theorem isFrom_of_load {fs : FileSystem} {path : Str} {pool : TrustPool}
    (h : (load fs path).2 = .ok pool) :
    ∃ content, fs.read path = .ok content ∧ pool.IsFrom content := by
  obtain ⟨content, hread, hne, hall⟩ := exists_span_of_load h
  refine ⟨content, hread, hne, fun c hc => ?_⟩
  obtain ⟨span, hspan, hfirst⟩ := hall c hc
  obtain ⟨body, -, rfl, hinfix⟩ := exists_of_mem_spans hspan
  exact ⟨body, hinfix, hfirst⟩

private theorem load_congr {fs fs' : FileSystem} {path : Str} (h : fs'.read path = fs.read path) :
    load fs' path = load fs path := by
  rw [load, load, h]

private theorem load_ne_unknownMode (fs : FileSystem) (path name : Str) :
    (load fs path).2 ≠ .error (.config (.unknownMode name)) := by
  cases hread : fs.read path with
  | error fault =>
    rw [load_of_unread hread]
    cases fault <;> simp [LoadError.ofFile, LoadError.ofFault]
  | ok content =>
    rw [load_eq_outcome hread, outcome]
    split
    · unfold kept
      dsimp only
      split <;> simp
    · simp

end Pki.TrustPool

namespace Policy

open Pki

def modeNames : List (Str × ClientAuth) :=
  [("RequestClientCert", .request), ("RequireClientCert", .requireAny),
    ("VerifyClientCertIfGiven", .verifyIfGiven), ("RequireAndVerifyClientCert", .requireAndVerify)]

private theorem ClientAuth.ofName?_eq_some_iff {name : Str} {mode : ClientAuth} :
    name.string?.bind ofName? = some mode ↔ (name, mode) ∈ modeNames := by
  simp only [Option.bind_eq_some_iff, Str.string?_eq_some_iff]
  constructor
  · rintro ⟨text, rfl, h⟩
    unfold ofName? at h
    split at h
    case h_5 => cases h
    all_goals
      cases h
      decide
  · intro h
    simp only [modeNames, List.mem_cons, Prod.mk.injEq, List.not_mem_nil, or_false] at h
    rcases h with ⟨rfl, rfl⟩ | ⟨rfl, rfl⟩ | ⟨rfl, rfl⟩ | ⟨rfl, rfl⟩ <;> exact ⟨_, rfl, rfl⟩

namespace SecurityPolicy

variable {fs : FileSystem} {c : TlsConfig} {policy : SecurityPolicy}

/-- A policy keeps what a document says: what the document names is in the policy as it is named,
and nothing else is. -/
structure Keeps (fs : FileSystem) (document : Value) (policy : SecurityPolicy) : Prop where
  mode : ∀ name, Names document .clientAuth name → (name, policy.clientAuth) ∈ modeNames
  no_mode : policy.clientAuth = .none ↔ Omits document .clientAuth
  pool : ∀ path, Names document .clientCas path → ∃ pool content, policy.pool? = some pool ∧
    fs.read path = .ok content ∧ pool.IsFrom content
  no_pool : policy.pool? = none ↔ Omits document .clientCas
  provider : ∀ path, Names document .certPath path →
    policy.provider? = some (.files path (written document .keyPath))
  no_provider : policy.provider? = none ↔ Omits document .certPath
  name : ∀ name, Names document .serverName name → policy.serverName? = some name
  no_name : policy.serverName? = none ↔ Omits document .serverName

private theorem filled?_empty : filled? "" = none := rfl

private theorem filled?_eq_none_iff {s : Str} : filled? s = none ↔ s = "" := by
  by_cases h : s = ""
  · simp [h, filled?_empty]
  · simp [h, filled?_of_ne]

theorem build_eq_ok (h : (build fs c).2 = .ok policy) :
    (poolOf fs c).2 = .ok policy.pool? ∧ modeOf c = .ok policy.clientAuth ∧
      policy.provider? = (filled? c.certPath).map (fun path => .files path c.keyPath) ∧
      policy.serverName? = filled? c.serverName := by
  cases hpool : (poolOf fs c).2 with
  | error e =>
    rw [build_result_of_error fs c hpool] at h
    cases h
  | ok pool =>
    rw [build_result fs c hpool] at h
    cases hmode : modeOf c with
    | error e =>
      rw [hmode] at h
      cases h
    | ok mode =>
      rw [hmode] at h
      obtain rfl := Except.ok.inj h
      exact ⟨rfl, rfl, rfl, rfl⟩

private theorem modeOf_of_unnamed (h : c.clientAuth = "") : modeOf c = .ok .none := by
  rw [modeOf, h, filled?_empty]

private theorem mem_modeNames_of_modeOf {mode : ClientAuth} (hnamed : c.clientAuth ≠ "")
    (h : modeOf c = .ok mode) : (c.clientAuth, mode) ∈ modeNames := by
  rw [modeOf, filled?_of_ne hnamed] at h
  dsimp only at h
  split at h
  · rename_i hmode
    obtain rfl := Except.ok.inj h
    exact ClientAuth.ofName?_eq_some_iff.mp hmode
  · cases h

private theorem exists_modeOf_iff :
    (∃ mode, modeOf c = .ok mode) ↔
      (c.clientAuth ≠ "" → ∃ mode, (c.clientAuth, mode) ∈ modeNames) := by
  constructor
  · rintro ⟨mode, hmode⟩ hnamed
    exact ⟨mode, mem_modeNames_of_modeOf hnamed hmode⟩
  · intro h
    by_cases hnamed : c.clientAuth = ""
    · exact ⟨.none, modeOf_of_unnamed hnamed⟩
    · obtain ⟨mode, hmem⟩ := h hnamed
      refine ⟨mode, ?_⟩
      rw [modeOf, filled?_of_ne hnamed]
      simp only [ClientAuth.ofName?_eq_some_iff.mpr hmem]

private theorem none_not_mem_modeNames {name : Str} : (name, ClientAuth.none) ∉ modeNames := by
  simp [modeNames]

theorem poolOf_of_unnamed (h : c.clientCas = "") : (poolOf fs c).2 = .ok none := by
  rw [poolOf, h, filled?_empty]

theorem exists_pool_of_named (hnamed : c.clientCas ≠ "") {pool? : Option TrustPool}
    (h : (poolOf fs c).2 = .ok pool?) :
    ∃ pool, pool? = some pool ∧ (TrustPool.load fs c.clientCas).2 = .ok pool := by
  rw [poolOf_result hnamed] at h
  cases hload : (TrustPool.load fs c.clientCas).2 with
  | error e =>
    rw [hload] at h
    cases h
  | ok pool =>
    rw [hload] at h
    exact ⟨pool, (Except.ok.inj h).symm, rfl⟩

private theorem exists_poolOf_iff :
    (∃ pool?, (poolOf fs c).2 = .ok pool?) ↔
      (c.clientCas ≠ "" → ∃ pool, (TrustPool.load fs c.clientCas).2 = .ok pool) := by
  constructor
  · rintro ⟨pool?, hpool⟩ hnamed
    obtain ⟨pool, -, hload⟩ := exists_pool_of_named hnamed hpool
    exact ⟨pool, hload⟩
  · intro h
    by_cases hnamed : c.clientCas = ""
    · exact ⟨none, poolOf_of_unnamed hnamed⟩
    · obtain ⟨pool, hload⟩ := h hnamed
      exact ⟨some pool, by rw [poolOf_result hnamed, hload]; rfl⟩

private theorem exists_build_iff :
    (∃ policy, (build fs c).2 = .ok policy) ↔
      (∃ pool?, (poolOf fs c).2 = .ok pool?) ∧ ∃ mode, modeOf c = .ok mode := by
  constructor
  · rintro ⟨policy, h⟩
    obtain ⟨hpool, hmode, -⟩ := build_eq_ok h
    exact ⟨⟨_, hpool⟩, _, hmode⟩
  · rintro ⟨⟨pool?, hpool⟩, mode, hmode⟩
    exact ⟨_, by rw [build_result fs c hpool, hmode]; rfl⟩

private theorem build_congr {fs' : FileSystem}
    (h : c.clientCas ≠ "" → fs'.read c.clientCas = fs.read c.clientCas) :
    build fs' c = build fs c := by
  have hpool : poolOf fs' c = poolOf fs c := by
    by_cases hnamed : c.clientCas = ""
    · simp only [poolOf, hnamed, filled?_empty]
    · simp only [poolOf, filled?_of_ne hnamed, TrustPool.load_congr (h hnamed)]
  rw [build, build, hpool]

private theorem keeps_of_build {document : Value} (fits : FitsSchema document)
    (hget : ∀ setting, c.get setting = written document setting)
    (h : (build fs c).2 = .ok policy) : policy.Keeps fs document := by
  obtain ⟨hpool, hmode, hprovider, hname⟩ := build_eq_ok h
  have hauth : c.clientAuth = written document .clientAuth := hget .clientAuth
  have hcas : c.clientCas = written document .clientCas := hget .clientCas
  have hcert : c.certPath = written document .certPath := hget .certPath
  have hkey : c.keyPath = written document .keyPath := hget .keyPath
  have hserver : c.serverName = written document .serverName := hget .serverName
  constructor
  case mode =>
    intro name hnames
    have hwritten := hauth.trans hnames.written_eq
    rw [← hwritten]
    exact mem_modeNames_of_modeOf (hwritten ▸ hnames.nonempty) hmode
  case no_mode =>
    rw [omits_iff fits, ← hauth]
    constructor
    · intro hnone
      refine Classical.byContradiction fun hnamed => ?_
      have hmem := mem_modeNames_of_modeOf hnamed hmode
      rw [hnone] at hmem
      exact none_not_mem_modeNames hmem
    · intro hempty
      rw [modeOf_of_unnamed hempty] at hmode
      exact (Except.ok.inj hmode).symm
  case pool =>
    intro path hnames
    have hwritten := hcas.trans hnames.written_eq
    obtain ⟨pool, hsome, hload⟩ := exists_pool_of_named (hwritten ▸ hnames.nonempty) hpool
    rw [hwritten] at hload
    obtain ⟨content, hread, hfrom⟩ := TrustPool.isFrom_of_load hload
    exact ⟨pool, content, hsome, hread, hfrom⟩
  case no_pool =>
    rw [omits_iff fits, ← hcas]
    constructor
    · intro hnone
      refine Classical.byContradiction fun hnamed => ?_
      obtain ⟨pool, hsome, -⟩ := exists_pool_of_named hnamed hpool
      rw [hnone] at hsome
      cases hsome
    · intro hempty
      rw [poolOf_of_unnamed hempty] at hpool
      exact (Except.ok.inj hpool).symm
  case provider =>
    intro path hnames
    have hwritten := hcert.trans hnames.written_eq
    rw [hprovider, hwritten, filled?_of_ne hnames.nonempty, hkey]
    rfl
  case no_provider =>
    rw [omits_iff fits, hprovider, Option.map_eq_none_iff, filled?_eq_none_iff, hcert]
  case name =>
    intro name hnames
    rw [hname, hserver, hnames.written_eq, filled?_of_ne hnames.nonempty]
  case no_name => rw [omits_iff fits, hname, filled?_eq_none_iff, hserver]

/-- A policy that is loaded from a file keeps what the document of the file says. -/
theorem keeps_of_load [Yaml.Room] {path : Str} (h : (load fs path).2 = .ok policy) :
    ∃ content document, fs.read path = .ok content ∧ Yaml.load content = .ok document ∧
      policy.Keeps fs document := by
  rw [load_result] at h
  have hpath : path ≠ "" := by
    rintro rfl
    cases h
  cases hconfig : (Config.load fs path).2 with
  | error e =>
    rw [hconfig] at h
    cases h
  | ok c =>
    rw [hconfig] at h
    obtain ⟨content, document, hread, hload, hdecode⟩ := (configures_iff hpath).mpr hconfig
    have once := HoldsKnownOnce.of_isProper (Yaml.load_isProper hload)
    have fits := ((exists_decode_iff once).mp ⟨c, hdecode⟩).1
    exact ⟨content, document, hread, hload, keeps_of_build fits (decode_get once hdecode) h⟩

/-- A policy is built of the options of a document if the authorities that the document names can be
loaded and the mode is one of those that have a name. It keeps what the document says, and never
puts something weaker in the place of it. Building reads the authorities that the document names and
no other file, so whether there is an own certificate or key makes no difference to it. If the
authorities cannot be loaded, that is the failure, whatever the mode is. -/
theorem build_keeps (document : Value) (proper : document.IsProper) (c : TlsConfig)
    (hdecode : (decode document).2 = .ok c) (fs : FileSystem) :
    ((∃ policy, (build fs c).2 = .ok policy) ↔
        (∀ path, Names document .clientCas path → ∃ pool, (TrustPool.load fs path).2 = .ok pool) ∧
          ∀ name, Names document .clientAuth name → ∃ mode, (name, mode) ∈ modeNames) ∧
      (∀ policy, (build fs c).2 = .ok policy → policy.Keeps fs document) ∧
      (∀ fs' : FileSystem,
        (∀ path, Names document .clientCas path → fs'.read path = fs.read path) →
          build fs' c = build fs c) ∧
      ∀ path e, Names document .clientCas path → (TrustPool.load fs path).2 = .error e →
        (build fs c).2 = .error e ∧ ∀ name, e ≠ .config (.unknownMode name) := by
  have once := HoldsKnownOnce.of_isProper proper
  have fits := ((exists_decode_iff once).mp ⟨c, hdecode⟩).1
  have hget := decode_get once hdecode
  have hcas : c.clientCas = written document .clientCas := hget .clientCas
  have hauth : c.clientAuth = written document .clientAuth := hget .clientAuth
  refine ⟨?_, fun policy h => keeps_of_build fits hget h, fun fs' hsame => ?_,
    fun path e hnames hload => ?_⟩
  · rw [exists_build_iff, exists_poolOf_iff, exists_modeOf_iff, forall_names_iff fits,
      forall_names_iff fits, hcas, hauth]
  · refine build_congr fun hnamed => hsame _ ?_
    rw [names_iff fits]
    exact ⟨hcas.symm, hnamed⟩
  · have hwritten := hcas.trans hnames.written_eq
    have hpool : (poolOf fs c).2 = .error e := by
      rw [poolOf_result (hwritten ▸ hnames.nonempty), hwritten, hload]
      rfl
    refine ⟨build_result_of_error fs c hpool, ?_⟩
    rintro name rfl
    exact TrustPool.load_ne_unknownMode fs path name hload

def strictDocument (mode : Str) : Value :=
  .mapping [(.text "tlsConfig", .mapping
    [(.text "clientAuth", .scalar (.text mode)), (.text "clientCAs", .scalar (.text "ca.pem")),
      (.text "tlsCertPath", .scalar (.text "server.crt")), (.text "tlsKeyPath", .scalar .null)])]

def strictOptions (mode : Str) : TlsConfig :=
  { certPath := "server.crt", clientAuth := mode, clientCas := "ca.pem" }

private theorem strictDocument_isProper (mode : Str) : (strictDocument mode).IsProper := by
  refine .mapping (by simp) ?_
  simp only [List.forall_mem_cons, List.not_mem_nil, false_imp_iff, implies_true, and_true]
  refine .mapping (by simp [Scalar.same, Scalar.integer?]) ?_
  simp only [List.forall_mem_cons, List.not_mem_nil, false_imp_iff, implies_true, and_true]
  exact ⟨.scalar _, .scalar _, .scalar _, .scalar _⟩

def authority : FileSystem :=
  ({} : FileSystem).write (Bytes.ofString "ca.pem") (.file TrustPool.small.toPem)

/-- The policy demands what the document does although the own certificate is missing, and is the
same if there is a file for it. Without the authority there is none, and a mode that is not known is
not told. -/
theorem build_keeps_strict :
    (∃ policy, (build authority (strictOptions "RequireAndVerifyClientCert")).2 = .ok policy ∧
        policy.Keeps authority (strictDocument "RequireAndVerifyClientCert")) ∧
      build (authority.write (Bytes.ofString "server.crt") (.file []))
          (strictOptions "RequireAndVerifyClientCert") =
        build authority (strictOptions "RequireAndVerifyClientCert") ∧
      (build {} (strictOptions "Strict")).2 =
        .error (.config (.unreadable "ca.pem" "No such file or directory")) := by
  have hnamed (mode path : Str) (h : Names (strictDocument mode) .clientCas path) :
      path = "ca.pem" := h.written_eq.symm
  have hstrict := build_keeps _ (strictDocument_isProper "RequireAndVerifyClientCert")
    (strictOptions "RequireAndVerifyClientCert") rfl authority
  have hunknown := build_keeps _ (strictDocument_isProper "Strict") (strictOptions "Strict") rfl {}
  refine ⟨⟨{ provider? := some (.files "server.crt" ""), pool? := some ⟨[TrustPool.small]⟩
             clientAuth := .requireAndVerify }, ?_⟩, ?_, ?_⟩
  · have hbuild : (build authority (strictOptions "RequireAndVerifyClientCert")).2 = .ok
        { provider? := some (.files "server.crt" ""), pool? := some ⟨[TrustPool.small]⟩
          clientAuth := .requireAndVerify } := by
      decide +kernel
    exact ⟨hbuild, hstrict.2.1 _ hbuild⟩
  · refine hstrict.2.2.1 _ fun path hpath => ?_
    rw [hnamed _ _ hpath]
    decide +kernel
  · exact (hunknown.2.2.2 "ca.pem" _ ⟨rfl, by decide⟩ (by decide +kernel)).1

end SecurityPolicy

end Policy

end TlsGate
