import Mathlib.Data.List.TakeWhile
import TlsGate.Proofs.Pki.Armour
import TlsGate.Proofs.Policy.Loading

/-!
Files of trusted certificates. What is loaded from a file follows from what its spans read as: the
certificates are kept in order, and each of the others is told. Armoured certificates are found
again among lines of whatever kind, so a pool that is written is loaded as it was.
-/

set_option autoImplicit false
set_option relaxedAutoImplicit false

namespace TlsGate.Pki

open Config Log Text

namespace TrustPool

/-! ## Spans -/

section Spans

variable {before body file : Bytes}

theorem opening_ne_nil : opening ≠ [] := by decide

private theorem closing_ne_nil : closing ≠ [] := by decide

theorem spans_of_no_opening (h : ¬ opening <:+: file) : spans file = [] := by
  rw [spans]
  split
  · rename_i hcut
    rw [cutAtList_eq_none h] at hcut
    cases hcut
  · rfl

theorem spans_of_no_closing (hbefore : IsClear opening before) (h : ¬ closing <:+: body.tail) :
    spans (before ++ opening ++ body) = [] := by
  rw [spans]
  split
  · rename_i first rest hcut
    rw [cutAtList_append opening_ne_nil hbefore] at hcut
    obtain ⟨-, rfl⟩ := Prod.mk.inj (Option.some.inj hcut)
    split
    · rename_i hclosing
      have hnone : cutAtList closing rest = none := cutAtList_eq_none h
      rw [hnone] at hclosing
      cases hclosing
    · rfl
  · rfl

theorem spans_append (hbefore : IsClear opening before) (hbody : body ≠ [])
    (hclear : IsClear closing body.tail) (after : Bytes) :
    spans (before ++ opening ++ body ++ closing ++ after) =
      (opening ++ body ++ closing) :: spans after := by
  obtain ⟨first, rest, rfl⟩ := List.exists_cons_of_ne_nil hbody
  have hopening : cutAtList opening (before ++ opening ++ (first :: rest) ++ closing ++ after) =
      some (before, first :: (rest ++ closing ++ after)) := by
    rw [List.append_assoc, List.append_assoc, cutAtList_append opening_ne_nil hbefore]
    simp only [List.cons_append, List.append_assoc]
  have hclosing : cutAtList closing (rest ++ closing ++ after) = some (rest, after) :=
    cutAtList_append closing_ne_nil hclear after
  rw [spans]
  split
  · rename_i _ _ _ hcut
    rw [hopening] at hcut
    cases hcut
    split
    · rename_i _ _ hcut
      rw [hclosing] at hcut
      cases hcut
      simp only [List.cons_append, List.append_assoc]
    · rename_i hnone
      rw [hclosing] at hnone
      cases hnone
  · rename_i hnone
    exact absurd hopening (hnone _ _ _)

theorem exists_of_mem_spans {span : Bytes} (h : span ∈ spans file) :
    ∃ body, body ≠ [] ∧ span = opening ++ body ++ closing ∧ span <:+: file := by
  fun_induction spans file with
  | case1 file before first rest hopening inner after hclosing ih =>
    have hfile : file = before ++ (opening ++ first :: inner ++ closing) ++ after := by
      rw [cutAtList_eq hopening, cutAtList_eq hclosing]
      simp only [List.append_assoc, List.cons_append]
    rcases List.mem_cons.mp h with rfl | h
    · exact ⟨first :: inner, List.cons_ne_nil _ _, rfl, ⟨before, after, hfile.symm⟩⟩
    · obtain ⟨body, hbody, hspan, hwithin⟩ := ih h
      exact ⟨body, hbody, hspan, hwithin.trans ⟨_, [], by rw [hfile, List.append_nil]⟩⟩
  | case2 => cases h
  | case3 => cases h

end Spans

/-! ## What is kept -/

abbrev Reading := Except CertificateFault Certificate

def isKnown : Reading → Bool
  | .error .version => false
  | _ => true

theorem isKnown_iff {r : Reading} : isKnown r = true ↔ r ≠ .error .version := by
  unfold isKnown
  split <;> simp_all

/-- What the readings of a file have to give: a warning for each that is no certificate, and a pool
of the others, if there are any. -/
def kept (path : Str) (readings : List Reading) : List Record × Except LoadError TrustPool :=
  (List.replicate (readings.countP fun r => !r.isOk) (skipped path),
    match readings.filterMap Except.toOption with
    | [] => .error (.config (.noCertificates path))
    | certificates => .ok ⟨certificates⟩)

/-- What the readings of a file give: an unknown version ends the reading. -/
def outcome (path : Str) (readings : List Reading) : List Record × Except LoadError TrustPool :=
  if readings.all isKnown then kept path readings
  else ((kept path (readings.takeWhile isKnown)).1, .error .certificateVersion)

private theorem collect_records (path : Str) (spans : List Bytes) :
    (collect path spans).1 =
      (kept path ((spans.map Certificate.firstOfPem).takeWhile isKnown)).1 := by
  fun_induction collect path spans with
  | case1 => rfl
  | case2 span rest c hfirst records result hrest ih =>
    rw [hrest] at ih
    rw [List.map_cons, hfirst, List.takeWhile_cons_of_pos rfl]
    simpa [kept, Except.isOk, Except.toBool] using ih
  | case3 span rest hfirst records result hrest ih =>
    rw [hrest] at ih
    rw [List.map_cons, hfirst, List.takeWhile_cons_of_pos rfl]
    simpa [kept, Except.isOk, Except.toBool, List.replicate_succ] using ih
  | case4 span rest hfirst =>
    rw [List.map_cons, hfirst, List.takeWhile_cons_of_neg (by decide)]
    rfl

private theorem collect_result (path : Str) (spans : List Bytes) :
    (collect path spans).2 =
      if (spans.map Certificate.firstOfPem).all isKnown then
        .ok ((spans.map Certificate.firstOfPem).filterMap Except.toOption)
      else .error .certificateVersion := by
  split
  · rename_i hknown
    rw [List.filterMap_map]
    exact collect_of_known path fun span hspan =>
      isKnown_iff.mp (List.all_eq_true.mp hknown _ (List.mem_map_of_mem hspan))
  · rename_i hunknown
    refine collect_of_version path ?_
    simpa only [List.all_map, List.all_eq_true, Function.comp_apply, isKnown_iff, not_forall,
      not_not, exists_prop] using hunknown

theorem load_eq_outcome {fs : FileSystem} {path : Str} {content : Bytes}
    (hread : fs.read path = .ok content) :
    load fs path = outcome path ((spans content).map Certificate.firstOfPem) := by
  have hrecords := collect_records path (spans content)
  have hresult := collect_result path (spans content)
  simp only [load, hread, outcome]
  cases hcollect : collect path (spans content) with
  | mk records result =>
    rw [hcollect] at hrecords hresult
    dsimp only at hrecords hresult
    by_cases hknown : ((spans content).map Certificate.firstOfPem).all isKnown
    · rw [List.takeWhile_eq_self_iff.mpr (List.all_eq_true.mp hknown)] at hrecords
      rw [if_pos hknown] at hresult ⊢
      rw [hrecords, hresult, kept]
      cases ((spans content).map Certificate.firstOfPem).filterMap Except.toOption <;> rfl
    · rw [if_neg hknown] at hresult ⊢
      rw [hrecords, hresult]

end TrustPool

/-! ## Certificates that have been read -/

/-- A certificate says what its encoding says. -/
def Certificate.IsGenuine (c : Certificate) : Prop := Certificate.ofDer c.encoded = .ok c

private theorem Certificate.read?_encoded {der : Bytes} {c : Certificate} (h : read? der = some c) :
    c.encoded = der := by
  obtain ⟨_, -, h⟩ := Option.bind_eq_some_iff.mp h
  obtain ⟨_, -, h⟩ := Option.bind_eq_some_iff.mp h
  split at h
  · obtain ⟨_, -, h⟩ := Option.bind_eq_some_iff.mp h
    -- what is left after the version, then its fields
    split at h
    split at h
    · obtain ⟨_, -, h⟩ := Option.bind_eq_some_iff.mp h
      obtain ⟨_, -, h⟩ := Option.bind_eq_some_iff.mp h
      obtain ⟨_, -, h⟩ := Option.bind_eq_some_iff.mp h
      split at h
      · simp only [Option.bind_eq_bind, Option.bind_eq_some_iff] at h
        obtain ⟨_, -, _, -, _, -, _, -, _, -, _, -, _, -, _, -, _, -, _, -, _, -, h⟩ := h
        exact congrArg encoded (Option.some.inj h).symm
      · cases h
    · cases h
  · cases h

/-- A certificate that has been read is genuine. -/
theorem Certificate.isGenuine_of_ofDer {der : Bytes} {c : Certificate} (h : ofDer der = .ok c) :
    c.IsGenuine := by
  unfold IsGenuine
  have hencoded : c.encoded = der := by
    unfold ofDer at h
    split at h
    · cases h
    · rename_i hread
      split at h
      · obtain rfl := Except.ok.inj h
        exact read?_encoded hread
      · cases h
  rw [hencoded, h]

namespace TrustPool

/-- A pool that a file can have: there is a certificate, and all of them are genuine. -/
structure IsGenuine (pool : TrustPool) : Prop where
  nonempty : pool.certificates ≠ []
  genuine : ∀ c ∈ pool.certificates, c.IsGenuine

private theorem exists_reading_of_kept {path : Str} {readings : List Reading} {pool : TrustPool}
    (h : (kept path readings).2 = .ok pool) :
    pool.certificates ≠ [] ∧ ∀ c ∈ pool.certificates, .ok c ∈ readings := by
  unfold kept at h
  dsimp only at h
  split at h
  · cases h
  · rename_i hne
    obtain rfl := Except.ok.inj h
    refine ⟨hne, fun c hc => ?_⟩
    obtain ⟨reading, hreading, hoption⟩ := List.mem_filterMap.mp hc
    cases reading with
    | error fault => cases hoption
    | ok c' =>
      obtain rfl := Option.some.inj hoption
      exact hreading

theorem exists_span_of_load {fs : FileSystem} {path : Str} {pool : TrustPool}
    (h : (load fs path).2 = .ok pool) :
    ∃ content, fs.read path = .ok content ∧ pool.certificates ≠ [] ∧
      ∀ c ∈ pool.certificates, ∃ span ∈ spans content, Certificate.firstOfPem span = .ok c := by
  cases hread : fs.read path with
  | error fault =>
    rw [load_of_unread hread] at h
    cases h
  | ok content =>
    rw [load_eq_outcome hread, outcome] at h
    split at h
    · obtain ⟨hne, hall⟩ := exists_reading_of_kept h
      exact ⟨content, rfl, hne, fun c hc => List.mem_map.mp (hall c hc)⟩
    · cases h

/-! ## Certificates among other text -/

/-- Lines of whatever kind but the one that certificates begin with. -/
structure IsFiller (text : Bytes) : Prop where
  no_opening : ¬ opening <:+: text
  lined : IsLined text

/-- Armoured certificates with a text before the first one and a text after each. -/
def bundle (before : Bytes) (parts : List (Certificate × Bytes)) : Bytes :=
  before ++ parts.flatMap fun part => part.1.toPem ++ part.2

theorem IsFiller.isClear {text : Bytes} (h : IsFiller text) : IsClear opening text :=
  h.lined.isClear opening_ne_nil (by decide) h.no_opening

theorem IsFiller.cons {text : Bytes} (h : IsFiller text) : IsFiller (10 :: text) := by
  refine ⟨fun hwithin => ?_, .inr ?_⟩
  · rcases List.infix_cons_iff.mp hwithin with hstart | hwithin
    · have hhead := hstart.head opening_ne_nil
      exact absurd hhead (by rw [List.head_cons]; decide)
    · exact h.no_opening hwithin
  · rcases h.lined with rfl | hlast
    · rfl
    · rw [List.getLast?_cons, hlast]
      rfl

private theorem readings_bundle {before : Bytes} {parts : List (Certificate × Bytes)}
    (hbefore : IsFiller before) (hparts : ∀ part ∈ parts, part.1.IsGenuine ∧ IsFiller part.2) :
    (spans (bundle before parts)).map Certificate.firstOfPem =
      parts.map fun part => .ok part.1 := by
  -- The end of the line of one certificate goes to the text before the next one.
  induction parts generalizing before with
  | nil => simp [bundle, spans_of_no_opening hbefore.no_opening]
  | cons part parts ih =>
    obtain ⟨hgenuine, hfiller⟩ := hparts part List.mem_cons_self
    have hrest := ih hfiller.cons fun p hp => hparts p (List.mem_cons_of_mem _ hp)
    have hbundle : bundle before (part :: parts) =
        before ++ opening ++ (10 :: Pem.dataLines part.1.encoded) ++ closing ++
          bundle (10 :: part.2) parts := by
      simp only [bundle, List.flatMap_cons, Certificate.toPem_eq, List.append_assoc,
        List.cons_append, List.nil_append]
    have hclear : IsClear closing (10 :: Pem.dataLines part.1.encoded).tail :=
      isClear_of_not_mem (m := 45) Pem.dash_not_mem_dataLines
    rw [hbundle, spans_append hbefore.isClear (List.cons_ne_nil _ _) hclear, List.map_cons, hrest,
      Certificate.firstOfPem_dataLines, hgenuine, List.map_cons]

private theorem kept_certificates (path : Str) {certificates : List Certificate}
    (h : certificates ≠ []) :
    kept path (certificates.map .ok) = ([], .ok ⟨certificates⟩) := by
  have hall : (certificates.map fun c => (.ok c : Reading)).filterMap Except.toOption =
      certificates := by
    rw [List.filterMap_map]
    exact List.filterMap_some
  have hnone : (certificates.map fun c => (.ok c : Reading)).countP (fun r => !r.isOk) = 0 := by
    rw [List.countP_eq_zero]
    simp [Except.isOk, Except.toBool]
  unfold kept
  rw [hall, hnone]
  cases certificates with
  | nil => exact absurd rfl h
  | cons c certificates => rfl

private theorem load_bundle {fs : FileSystem} {path : Str} {before : Bytes}
    {parts : List (Certificate × Bytes)} (hread : fs.read path = .ok (bundle before parts))
    (hbefore : IsFiller before) (hne : parts ≠ [])
    (hparts : ∀ part ∈ parts, part.1.IsGenuine ∧ IsFiller part.2) :
    load fs path = ([], .ok ⟨parts.map Prod.fst⟩) := by
  have hreadings := readings_bundle hbefore hparts
  have hmap : (parts.map fun part => (.ok part.1 : Reading)) = (parts.map Prod.fst).map .ok :=
    (List.map_map ..).symm
  rw [load_eq_outcome hread, hreadings, outcome, if_pos (by simp [isKnown]), hmap,
    kept_certificates path (by simpa using hne)]

theorem load_toPem {fs : FileSystem} {path : Str} {pool : TrustPool}
    (hread : fs.read path = .ok pool.toPem) (hgenuine : pool.IsGenuine) :
    load fs path = ([], .ok pool) := by
  have hempty : IsFiller [] := ⟨by decide, .inl rfl⟩
  have hwritten : pool.toPem = bundle [] (pool.certificates.map fun c => (c, [])) := by
    simp [toPem, bundle, List.flatMap_map]
  rw [hwritten] at hread
  rw [load_bundle hread hempty (by simpa using hgenuine.nonempty) ?_]
  · rw [List.map_map, Function.comp_def, List.map_id']
  · intro part hpart
    obtain ⟨c, hc, rfl⟩ := List.mem_map.mp hpart
    exact ⟨hgenuine.genuine c hc, hempty⟩

/-- Certificates that are written to a file among other lines are loaded in their order, and nothing
is logged of it; so a pool that is written is loaded as it was. A file without a block of a
certificate has no pool. -/
theorem loads_written (fs : FileSystem) (path : Str) :
    (∀ before parts, fs.read path = .ok (bundle before parts) → IsFiller before → parts ≠ [] →
        (∀ part ∈ parts, part.1.IsGenuine ∧ IsFiller part.2) →
        load fs path = ([], .ok ⟨parts.map Prod.fst⟩)) ∧
      (∀ pool : TrustPool, fs.read path = .ok pool.toPem → pool.IsGenuine →
        load fs path = ([], .ok pool)) ∧
      ∀ content, fs.read path = .ok content →
        (∀ body, body ≠ [] → ¬ opening ++ body ++ closing <:+: content) →
        load fs path = ([], .error (.config (.noCertificates path))) := by
  refine ⟨fun before parts => load_bundle, fun pool => load_toPem, fun content hread hnone => ?_⟩
  have hspans : spans content = [] := by
    refine List.eq_nil_iff_forall_not_mem.mpr fun span hspan => ?_
    obtain ⟨body, hbody, rfl, hwithin⟩ := exists_of_mem_spans hspan
    exact hnone body hbody hwithin
  rw [load_eq_outcome hread, hspans]
  rfl

def smallDer (version : UInt8) : Bytes :=
  let algorithm := [0x30, 0x03, 0x06, 0x01, 0x2A]
  let bits := [0x03, 0x02, 0x00, 0x01]
  [0x30, 0x47, 0x30, 0x3C, 0xA0, 0x03, 0x02, 0x01, version, 0x02, 0x01, 0x01] ++ algorithm ++
    [0x30, 0x00, 0x30, 0x1E, 0x17, 0x0D] ++ Bytes.ofString "500101000000Z" ++
    [0x17, 0x0D] ++ Bytes.ofString "491231235959Z" ++
    [0x30, 0x00, 0x30, 0x09] ++ algorithm ++ bits ++ algorithm ++ bits

def small : Certificate := (Certificate.read? (smallDer 2)).get (by decide +kernel)

def otherLines : Bytes :=
  Bytes.ofString "-----END CERTIFICATE-----\n-----BEGIN KEY-----\n-----BEGIN CERTIFICATE----\n"

def writtenPools : FileSystem :=
  let withBundle := ({} : FileSystem).write (Bytes.ofString "ca.pem")
    (.file (bundle otherLines [(small, otherLines), (small, [])]))
  let withPool := withBundle.write (Bytes.ofString "pool.pem") (.file (toPem ⟨[small]⟩))
  withPool.write (Bytes.ofString "key.pem") (.file otherLines)

/-- A certificate that stands in a file twice is loaded twice. -/
theorem loads_written_twice :
    load writtenPools "ca.pem" = ([], .ok ⟨[small, small]⟩) ∧
      load writtenPools "pool.pem" = ([], .ok ⟨[small]⟩) ∧
      load writtenPools "key.pem" = ([], .error (.config (.noCertificates "key.pem"))) := by
  have hgenuine : small.IsGenuine := by unfold Certificate.IsGenuine; decide +kernel
  have hlines : IsFiller otherLines := ⟨by decide +kernel, .inr (by decide)⟩
  have hempty : IsFiller [] := ⟨by decide, .inl rfl⟩
  refine ⟨(loads_written writtenPools "ca.pem").1 otherLines [(small, otherLines), (small, [])]
      (by decide +kernel) hlines (by simp) ?_,
    (loads_written writtenPools "pool.pem").2.1 ⟨[small]⟩ (by decide +kernel) ⟨by simp, ?_⟩,
    (loads_written writtenPools "key.pem").2.2 otherLines (by decide +kernel)
      fun body _ hwithin => ?_⟩
  · simp [hgenuine, hlines, hempty]
  · simp [hgenuine]
  · have hopening : opening <:+: opening ++ body ++ closing := ⟨[], body ++ closing, by simp⟩
    exact hlines.no_opening (hopening.trans hwithin)

end TrustPool

end TlsGate.Pki
