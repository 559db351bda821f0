import Mathlib.Control.Monad.Basic
import TlsGate.Policy.SecurityPolicy
import TlsGate.Proofs.Config.Schema
import TlsGate.Proofs.Str

/-!
Loading a policy. What a failure says follows from the files, and each configuration error is logged
once, with the path, after warnings only. Some failures are no configuration errors, and none of
them is logged: a path that no file can have, a document that keeps to the rules of YAML and cannot
be read, an unknown key that cannot be printed, and a certificate with a version that is not known.
-/

set_option autoImplicit false
set_option relaxedAutoImplicit false

namespace TlsGate

open Log

/-! ## Warnings -/

def Log.Record.IsCaution (r : Record) : Prop :=
  r.level = .warning ∧ (r.source = .config ∨ r.source = .policy)

namespace Config

private theorem unknownKey_isCaution (shown : Str) : (unknownKey shown).IsCaution := ⟨rfl, .inl rfl⟩

private theorem warnOutside_cautions (entries : List (Scalar × Value)) :
    ∀ r ∈ (warnOutside entries).1, r.IsCaution := by
  fun_induction warnOutside entries <;> simp_all [unknownKey_isCaution]

private theorem decodeSection_cautions (c : TlsConfig) (options : List (Scalar × Value)) :
    ∀ r ∈ (decodeSection c options).1, r.IsCaution := by
  fun_induction decodeSection c options <;> simp_all [unknownKey_isCaution]

private theorem decode_cautions (document : Value) : ∀ r ∈ (decode document).1, r.IsCaution := by
  unfold decode
  split
  · simp
  · rename_i entries
    have houtside := warnOutside_cautions entries
    split
    · rename_i hwarn
      rwa [hwarn] at houtside
    · rename_i hwarn
      rw [hwarn] at houtside
      split
      · exact houtside
      · exact houtside
      · intro r hr
        rcases List.mem_append.mp hr with hr | hr
        · exact houtside r hr
        · exact decodeSection_cautions _ _ r hr
      · exact houtside
  · simp

private theorem load_cautions [Yaml.Room] (fs : FileSystem) (path : Str) :
    ∀ r ∈ (load fs path).1, r.IsCaution := by
  simp only [load]
  split
  · simp
  · split
    · simp
    · split
      · simp
      · exact decode_cautions _

inductive RefusesPath (path : Str) : LoadError → Prop
  | nulInPath (encodable : path.IsEncodable) (nul : path.HasNul) : RefusesPath path .nulInPath
  | unencodable (stray : ¬ path.IsEncodable) : RefusesPath path .unencodable

theorem LoadError.ofFault_of_named {fs : FileSystem} {path : Str} {fault : FileFault}
    (h : fs.read path = .error fault) (encodable : path.IsEncodable) (nul : ¬ path.HasNul)
    (unreadable : String → ConfigError) :
    ofFault unreadable fault = .config (unreadable fault.reason) := by
  cases fault with
  | nulInPath => exact absurd (FileSystem.read_eq_nul_iff.mp h).2 nul
  | unencodable => exact absurd encodable (FileSystem.read_eq_unencodable_iff.mp h)
  | _ => rfl

theorem RefusesPath.ofFault_cases {fs : FileSystem} {path : Str} {fault : FileFault}
    (h : fs.read path = .error fault) (unreadable : String → ConfigError) :
    RefusesPath path (.ofFault unreadable fault) ∨ path.IsEncodable ∧ ¬ path.HasNul := by
  by_cases encodable : path.IsEncodable
  · by_cases nul : path.HasNul
    · have hread : fs.read path = .error .nulInPath :=
        FileSystem.read_eq_nul_iff.mpr ⟨encodable, nul⟩
      obtain rfl := Except.error.inj (h.symm.trans hread)
      exact .inl (.nulInPath encodable nul)
    · exact .inr ⟨encodable, nul⟩
  · have hread : fs.read path = .error .unencodable :=
      FileSystem.read_eq_unencodable_iff.mpr encodable
    obtain rfl := Except.error.inj (h.symm.trans hread)
    exact .inl (.unencodable encodable)

theorem RefusesPath.exists_fault {path : Str} {e : LoadError} (h : RefusesPath path e)
    (fs : FileSystem) :
    ∃ fault, fs.read path = .error fault ∧
      ∀ unreadable, LoadError.ofFault unreadable fault = e := by
  cases h with
  | nulInPath encodable nul =>
    exact ⟨_, FileSystem.read_eq_nul_iff.mpr ⟨encodable, nul⟩, fun _ => rfl⟩
  | unencodable stray => exact ⟨_, FileSystem.read_eq_unencodable_iff.mpr stray, fun _ => rfl⟩

theorem RefusesPath.read_ne_ok {path : Str} {e : LoadError} (h : RefusesPath path e)
    (fs : FileSystem) (content : Bytes) : fs.read path ≠ .ok content := by
  obtain ⟨fault, hread, -⟩ := h.exists_fault fs
  rw [hread]
  simp

theorem RefusesPath.ne_config {path : Str} {e : LoadError} (h : RefusesPath path e)
    (d : ConfigError) : e ≠ .config d := by
  rintro rfl
  cases h

end Config

namespace Pki.TrustPool

open Config

private theorem collect_cautions (path : Str) (spans : List Bytes) :
    ∀ r ∈ (collect path spans).1, r.IsCaution := by
  have hskipped : (skipped path).IsCaution := ⟨rfl, .inr rfl⟩
  fun_induction collect path spans <;> simp_all

private theorem load_cautions (fs : FileSystem) (path : Str) :
    ∀ r ∈ (load fs path).1, r.IsCaution := by
  unfold load
  split
  · simp
  · rename_i content _
    have hcollect := collect_cautions path (spans content)
    split <;> rename_i h <;> rw [h] at hcollect <;> exact hcollect

theorem collect_of_version (path : Str) {spans : List Bytes}
    (h : ∃ span ∈ spans, Certificate.firstOfPem span = .error .version) :
    (collect path spans).2 = .error .certificateVersion := by
  induction spans with
  | nil => simp at h
  | cons span rest ih =>
    cases hfirst : Certificate.firstOfPem span with
    | ok c =>
      have hrest : ∃ span ∈ rest, Certificate.firstOfPem span = .error .version := by
        simpa [hfirst] using h
      simp [collect, hfirst, ih hrest, Except.map]
    | error fault =>
      cases fault with
      | version => simp [collect, hfirst]
      | malformed =>
        have hrest : ∃ span ∈ rest, Certificate.firstOfPem span = .error .version := by
          simpa [hfirst] using h
        simp [collect, hfirst, ih hrest]

theorem collect_of_known (path : Str) {spans : List Bytes}
    (h : ∀ span ∈ spans, Certificate.firstOfPem span ≠ .error .version) :
    (collect path spans).2 =
      .ok (spans.filterMap fun span => (Certificate.firstOfPem span).toOption) := by
  induction spans with
  | nil => rfl
  | cons span rest ih =>
    have hrest := ih fun s hs => h s (List.mem_cons_of_mem _ hs)
    cases hfirst : Certificate.firstOfPem span with
    | ok c => simp [collect, hfirst, hrest, Except.map, Except.toOption]
    | error fault =>
      cases fault with
      | version => exact absurd hfirst (h span List.mem_cons_self)
      | malformed => simp [collect, hfirst, hrest, Except.toOption]

variable {fs : FileSystem} {path : Str} {content : Bytes}

theorem load_of_unread {fault : FileFault} (hread : fs.read path = .error fault) :
    (load fs path).2 = .error (.ofFile path fault) := by
  simp only [load, hread]

end Pki.TrustPool

namespace Policy

open Config Pki Text

/-! ## Building a policy -/

def HasPool (fs : FileSystem) (c : TlsConfig) : Prop :=
  c.clientCas = "" ∨ ∃ content, fs.read c.clientCas = .ok content ∧
    (∀ span ∈ TrustPool.spans content, Certificate.firstOfPem span ≠ .error .version) ∧
    ∃ span ∈ TrustPool.spans content, ∃ certificate,
      Certificate.firstOfPem span = .ok certificate

namespace SecurityPolicy

variable {fs : FileSystem} {c : TlsConfig}

theorem filled?_of_ne {s : Str} (h : s ≠ "") : filled? s = some s := by
  simp [filled?, h]

theorem poolOf_result (hnamed : c.clientCas ≠ "") :
    (poolOf fs c).2 = (TrustPool.load fs c.clientCas).2.map some := by
  simp only [poolOf, filled?_of_ne hnamed]

theorem build_result (fs : FileSystem) (c : TlsConfig) {pool : Option TrustPool}
    (hpool : (poolOf fs c).2 = .ok pool) :
    (build fs c).2 = (modeOf c).map fun mode =>
      { provider? := (filled? c.certPath).map fun path => .files path c.keyPath
        serverName? := filled? c.serverName, pool? := pool, clientAuth := mode } := by
  simp only [build, hpool, bind, Except.bind]
  cases modeOf c <;> rfl

theorem build_result_of_error (fs : FileSystem) (c : TlsConfig) {e : LoadError}
    (hpool : (poolOf fs c).2 = .error e) : (build fs c).2 = .error e := by
  simp only [build, hpool, bind, Except.bind]

theorem build_cautions (fs : FileSystem) (c : TlsConfig) :
    ∀ r ∈ (build fs c).1, r.IsCaution := by
  simp only [build, poolOf]
  split
  · simp
  · exact TrustPool.load_cautions fs _

private theorem failureRecord_source (intro : String) (path : Str) (e : LoadError) :
    ∀ r ∈ failureRecord intro path e, r.source = .policy := by
  unfold failureRecord
  split <;> simp

end SecurityPolicy

/-! ## What a failure says -/

section Loading

variable [Yaml.Room]

def Configures (fs : FileSystem) (path : Str) (c : TlsConfig) : Prop :=
  ∃ content document, fs.read path = .ok content ∧ Yaml.load content = .ok document ∧
    (decode document).2 = .ok c

def Needs (fs : FileSystem) (path needed : Str) : Prop :=
  needed = path ∨ ∃ c, Configures fs path c ∧ needed = c.clientCas ∧ needed ≠ ""

/-- Why a policy cannot be loaded from a path. -/
inductive FailsWith (fs : FileSystem) (path : Str) : LoadError → Prop
  | refusedPath {needed : Str} {e : LoadError} (needs : Needs fs path needed)
      (refused : RefusesPath needed e) : FailsWith fs path e
  | unreadable {needed : Str} {fault : FileFault} (needs : Needs fs path needed)
      (encodable : needed.IsEncodable) (nul : ¬ needed.HasNul)
      (unread : fs.read needed = .error fault) :
      FailsWith fs path (.config (.unreadable needed fault.reason))
  | malformed {content : Bytes} (read : fs.read path = .ok content)
      (breaks : Yaml.load content = .error .malformed) :
      FailsWith fs path (.config (.invalidYaml path (Yaml.Fault.message .malformed)))
  | document {content : Bytes} {fault : Yaml.Fault} (read : fs.read path = .ok content)
      (stops : Yaml.load content = .error fault) (other : fault ≠ .malformed) :
      FailsWith fs path (.document fault)
  | schema {content : Bytes} {document : Value} {fault : SchemaFault}
      (read : fs.read path = .ok content) (loads : Yaml.load content = .ok document)
      (misfits : (decode document).2 = .error (.schema fault)) :
      FailsWith fs path (.config (.schema fault))
  | unprintable {content : Bytes} {document : Value} (read : fs.read path = .ok content)
      (loads : Yaml.load content = .ok document)
      (unprinted : (decode document).2 = .error .unprintable) : FailsWith fs path .unprintable
  | certificateVersion {c : TlsConfig} {content span : Bytes} (configures : Configures fs path c)
      (names : c.clientCas ≠ "") (read : fs.read c.clientCas = .ok content)
      (found : span ∈ TrustPool.spans content)
      (unknown : Certificate.firstOfPem span = .error .version) :
      FailsWith fs path .certificateVersion
  | noCertificates {c : TlsConfig} {content : Bytes} (configures : Configures fs path c)
      (names : c.clientCas ≠ "") (read : fs.read c.clientCas = .ok content)
      (damaged : ∀ span ∈ TrustPool.spans content,
        Certificate.firstOfPem span = .error .malformed) :
      FailsWith fs path (.config (.noCertificates c.clientCas))
  | unknownMode {c : TlsConfig} (configures : Configures fs path c) (pool : HasPool fs c)
      (names : c.clientAuth ≠ "") (unknown : c.clientAuth.string?.bind ClientAuth.ofName? = none) :
      FailsWith fs path (.config (.unknownMode c.clientAuth))

theorem FailsWith.ofFile {fs : FileSystem} {path needed : Str} {fault : FileFault}
    (needs : Needs fs path needed) (unread : fs.read needed = .error fault) :
    FailsWith fs path (.ofFile needed fault) := by
  obtain hrefused | ⟨encodable, nul⟩ := RefusesPath.ofFault_cases unread (.unreadable needed)
  · exact .refusedPath needs hrefused
  · rw [LoadError.ofFile, LoadError.ofFault_of_named unread encodable nul]
    exact .unreadable needs encodable nul unread

namespace SecurityPolicy

variable {fs : FileSystem} {path : Str} {c : TlsConfig}

/-! ### Reading the configuration -/

theorem configures_iff (hpath : path ≠ "") :
    Configures fs path c ↔ (Config.load fs path).2 = .ok c := by
  simp only [Configures, Config.load, Str.isEmpty_iff, if_neg hpath]
  constructor
  · rintro ⟨content, document, hread, hload, hdecode⟩
    simp [hread, hload, hdecode, Except.mapError]
  · intro h
    split at h
    · cases h
    · rename_i content hread
      split at h
      · cases h
      · rename_i document hload
        refine ⟨content, document, hread, hload, ?_⟩
        dsimp only at h
        cases hdecode : (decode document).2 with
        | error fault =>
          rw [hdecode] at h
          cases h
        | ok c' =>
          rw [hdecode] at h
          exact congrArg Except.ok (Except.ok.inj h)

theorem load_result (fs : FileSystem) (path : Str) :
    (load fs path).2 = (Config.load fs path).2.bind fun c => (build fs c).2 := by
  unfold load loadAt
  split <;> rename_i hload
  · rw [hload]
    rfl
  · rw [hload]
    split <;> rename_i hbuild <;> simp [Except.bind, hbuild]

/-! ### Loading -/

private theorem load_of_config_error {e : LoadError} (h : (Config.load fs path).2 = .error e) :
    (load fs path).2 = .error e := by
  rw [load_result, h]
  rfl

private theorem load_of_pool_error (hpath : path ≠ "") (hconf : Configures fs path c)
    {e : LoadError}
    (h : (poolOf fs c).2 = .error e) : (load fs path).2 = .error e := by
  rw [load_result, (configures_iff hpath).mp hconf]
  exact build_result_of_error fs c h

theorem load_of_unread (hpath : path ≠ "") {needed : Str} {fault : FileFault}
    (needs : Needs fs path needed) (unread : fs.read needed = .error fault) :
    (load fs path).2 = .error (.ofFile needed fault) := by
  rcases needs with rfl | ⟨c, hconf, rfl, hnamed⟩
  · refine load_of_config_error ?_
    simp only [Config.load, Str.isEmpty_iff, if_neg hpath, unread]
  · refine load_of_pool_error hpath hconf ?_
    rw [poolOf_result hnamed, TrustPool.load_of_unread unread]
    rfl

private theorem load_records (fs : FileSystem) (path : Str) :
    ∃ cautions intro, (∀ r ∈ cautions, r.IsCaution) ∧
      (load fs path).1 = cautions ++
        match (load fs path).2 with
        | .ok _ => []
        | .error e => failureRecord intro path e := by
  have hloaded := Config.load_cautions fs path
  unfold load loadAt
  split <;> rename_i hload <;> rw [hload] at hloaded
  · exact ⟨_, _, hloaded, rfl⟩
  · rename_i records c
    have hbuilt := build_cautions fs c
    have hboth : ∀ r ∈ records ++ (build fs c).1, r.IsCaution := by
      intro r hr
      rcases List.mem_append.mp hr with hr | hr
      · exact hloaded r hr
      · exact hbuilt r hr
    split <;> rename_i hbuild <;> rw [hbuild] at hboth
    · exact ⟨_, "", hboth, (List.append_nil _).symm⟩
    · exact ⟨_, _, hboth, rfl⟩

theorem load_source (fs : FileSystem) (path : Str) :
    ∀ r ∈ (load fs path).1, r.source = .config ∨ r.source = .policy := by
  obtain ⟨cautions, intro, hcautions, hrecords⟩ := load_records fs path
  rw [hrecords]
  intro r hr
  rcases List.mem_append.mp hr with hr | hr
  · exact (hcautions r hr).2
  · split at hr
    · cases hr
    · exact .inr (failureRecord_source _ _ _ r hr)

theorem atLeast_error_load (fs : FileSystem) (path : Str) :
    ∃ intro, atLeast .error (load fs path).1 =
      match (load fs path).2 with
      | .ok _ => []
      | .error e => failureRecord intro path e := by
  obtain ⟨cautions, intro, hcautions, hrecords⟩ := load_records fs path
  refine ⟨intro, ?_⟩
  have hquiet : atLeast .error cautions = [] := by
    refine List.filter_eq_nil_iff.mpr fun r hr => ?_
    rw [(hcautions r hr).1]
    decide
  rw [hrecords, atLeast, List.filter_append]
  rw [atLeast] at hquiet
  rw [hquiet, List.nil_append]
  split
  · rfl
  · unfold failureRecord
    split <;> rfl

/-! ### Causes -/

/-- What the class of a configuration error says about the files. -/
def Tells (fs : FileSystem) (path : Str) : ErrorKind → Prop
  | .file => ∃ needed fault, Needs fs path needed ∧ fs.read needed = .error fault
  | .parse => ∃ content, fs.read path = .ok content ∧ (Yaml.load content = .error .malformed ∨
      ∃ document fault, Yaml.load content = .ok document ∧
        (decode document).2 = .error (.schema fault))
  | .build => ∃ c, Configures fs path c ∧ ¬ HasPool fs c
  | .mode => ∃ c, Configures fs path c ∧ HasPool fs c ∧ c.clientAuth ≠ "" ∧
      c.clientAuth.string?.bind ClientAuth.ofName? = none
  | _ => False

end SecurityPolicy

end Loading

namespace SecurityPolicy

local instance roomOfCalls : Yaml.Room := .ofCalls 960

end SecurityPolicy

end Policy

end TlsGate
