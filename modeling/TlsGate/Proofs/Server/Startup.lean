import TlsGate.Command.Run
import TlsGate.Proofs.Policy.Loading
import TlsGate.Proofs.Server.FailClosed

/-!
A server that is started with a path starts as a whole or not at all. Without a path it serves in
the clear whatever its settings say; with a path of a configuration that cannot be used it keeps its
settings and opens nothing; and with any other path both slots are replaced, and each connection is
secured by the new source.
-/

set_option autoImplicit false
set_option relaxedAutoImplicit false

namespace TlsGate.Server

open Command Config Log Policy Tls

variable {ε τ : Type}

/-! ## Settling the gate -/

namespace Settings

private theorem namedPath?_eq_none {path? : Option Str} (h : path? = none ∨ path? = some "") :
    namedPath? path? = none := by
  rcases h with rfl | rfl
  · rfl
  · rfl

private theorem namedPath?_eq_some {path : Str} (hpath : path ≠ "") :
    namedPath? (some path) = some path := by
  simp [namedPath?, Option.filter, hpath]

def replaced (s : Settings) (path : Str) (policy : SecurityPolicy) : Settings :=
  { s with policy? := some policy, source? := some (.loaded path) }

end Settings

section Start

variable [Yaml.Room] (network : Network) {fs : FileSystem} (s : Settings) {path? : Option Str}
variable {path : Str}

variable (fs) in
private theorem start_of_unnamed (h : path? = none ∨ path? = some "") :
    start network fs s (.configured path?) =
      if network.refuses then ⟨[], s, [s.address], .error .address⟩
      else
        let listening : Listening := ⟨.clear, network.bound?.getD s.address⟩
        ⟨[listening.record], s, [s.address], .ok listening⟩ := by
  simp only [start, Settings.prepare, Settings.namedPath?_eq_none h]
  rfl

private theorem start_of_load_error (hpath : path ≠ "") {e : LoadError}
    (hload : (SecurityPolicy.load fs path).2 = .error e) :
    start network fs s (.configured (some path)) =
      ⟨(SecurityPolicy.load fs path).1, s, [], .error (.load e)⟩ := by
  have hboth : SecurityPolicy.load fs path = ((SecurityPolicy.load fs path).1, .error e) :=
    Prod.ext rfl hload
  simp only [start, Settings.prepare, Settings.namedPath?_eq_some hpath]
  rw [hboth]

private theorem start_of_load_ok (hpath : path ≠ "") {policy : SecurityPolicy}
    (hload : (SecurityPolicy.load fs path).2 = .ok policy) :
    let begun := start network fs s (.configured (some path))
    begun.settings = s.replaced path policy ∧ begun.tried = [s.address] ∧
      begun.result = if network.refuses then .error .address
        else .ok ⟨.secured (.loaded path), network.bound?.getD s.address⟩ := by
  have hboth : SecurityPolicy.load fs path = ((SecurityPolicy.load fs path).1, .ok policy) :=
    Prod.ext rfl hload
  simp only [start, Settings.prepare, Settings.namedPath?_eq_some hpath]
  rw [hboth]
  dsimp only [Settings.securedGate, Settings.effectiveSource?, Option.some_or]
  cases network.refuses with
  | true => exact ⟨rfl, rfl, rfl⟩
  | false => exact ⟨rfl, rfl, rfl⟩

end Start

/-! ## Runs -/

section Serving

variable [Yaml.Room] [Pki.KeyLibrary]

section Runs

variable (stack : Stack ε) (handler : Handler ε τ) (protocols? : Option (List String)) (gate : Gate)

def worldAt (begun : Start) (fs : FileSystem) (state : τ) (steps : List Step) (i : Nat) : World τ :=
  worldAfter stack handler protocols? gate ⟨fs, begun.settings, 0, state⟩ (steps.take i)

private theorem step_source (w : World τ) (s : Step) :
    (step stack handler protocols? gate w s).2.settings.source? = w.settings.source? := by
  cases s with
  | arrival a => rfl
  | edit e => rfl
  | setPolicy options =>
    simp only [step]
    split <;> rfl

private theorem run_source (steps : List Step) (w : World τ) :
    (run stack handler protocols? gate steps w).2.settings.source? = w.settings.source? := by
  induction steps generalizing w with
  | nil => rfl
  | cons s rest ih =>
    have hstep := step_source stack handler protocols? gate w s
    simp only [run]
    split
    · exact hstep
    · exact (ih _).trans hstep

end Runs

section Histories

variable {stack : Stack ε} {handler : Handler ε τ} {network : Network} {fs : FileSystem}
variable {s : Settings} {mode : Mode} {state : τ} {steps : List Step}

theorem History.of_error {e : StartError} (h : (Server.start network fs s mode).result = .error e) :
    History.of stack handler network fs s mode state steps =
      ⟨Server.start network fs s mode, [],
        ⟨fs, (Server.start network fs s mode).settings, 0, state⟩⟩ := by
  simp only [History.of, h]

private theorem History.visit_eq_receive {i : Nat} {report : Report ε τ} {visit : Visit ε τ}
    (hreport : (History.of stack handler network fs s mode state steps).reports[i]? = some report)
    (hvisit : report.visit? = some visit) :
    ∃ listening a, (Server.start network fs s mode).result = .ok listening ∧
      steps[i]? = some (.arrival a) ∧
      let before := worldAt stack handler s.protocols? listening.gate
        (Server.start network fs s mode) fs state steps i
      visit = receive stack handler s.protocols? listening.gate (filesAfter fs (steps.take i))
        before.passed before.state a := by
  cases hbegun : (Server.start network fs s mode).result with
  | error e =>
    rw [History.of_error hbegun] at hreport
    cases hreport
  | ok listening =>
    have hreports : (History.of stack handler network fs s mode state steps).reports =
        (run stack handler s.protocols? listening.gate steps
          ⟨fs, (Server.start network fs s mode).settings, 0, state⟩).1 := by
      simp only [History.of, hbegun]
    rw [hreports] at hreport
    obtain ⟨step, hstep, rfl⟩ := run_report _ _ _ _ _ _ _ _ hreport
    cases step with
    | arrival a =>
      obtain rfl := Option.some.inj hvisit
      refine ⟨listening, a, rfl, hstep, ?_⟩
      simp only [worldAt, worldAfter_fs]
    | edit e => cases hvisit
    | setPolicy options =>
      simp only [step] at hvisit
      split at hvisit <;> cases hvisit

end Histories

/-! ## Starting -/

section Starting

variable (stack : Stack ε) (handler : Handler ε τ) (network : Network) (fs : FileSystem)
variable (s : Settings) (state : τ) (steps : List Step)

/-- A server starts in the clear: whatever the files are, the settings stay as they are, one
listener is opened unless the network refuses it, and the handler is given each connection as it
is. -/
structure StartsClear (path? : Option Str) : Prop where
  unread (files : FileSystem) :
    start network files s (.configured path?) = start network fs s (.configured path?)
  settings : (start network fs s (.configured path?)).settings = s
  tried : (start network fs s (.configured path?)).tried = [s.address]
  result : (start network fs s (.configured path?)).result =
    if network.refuses then .error .address
    else .ok ⟨.clear, network.bound?.getD s.address⟩
  treated (i : Nat) (report : Report ε τ) (visit : Visit ε τ) :
    (History.of stack handler network fs s (.configured path?) state steps).reports[i]? =
      some report → report.visit? = some visit →
    ∃ a, steps[i]? = some (.arrival a) ∧
      let before := worldAt stack handler s.protocols? .clear
        (start network fs s (.configured path?)) fs state steps i
      visit = handle stack handler (before.passed + 1) a.remote? (.clear a.transport) before.state

/-- A server does not start: its settings stay as they are and nothing is opened. A configuration
error has been logged once, and ends the command with a status of its own. -/
structure FailsToStart (path : Str) (e : LoadError) : Prop where
  begun : start network fs s (.configured (some path)) =
    ⟨(SecurityPolicy.load fs path).1, s, [], .error (.load e)⟩
  history : History.of stack handler network fs s (.configured (some path)) state steps =
    ⟨start network fs s (.configured (some path)), [], ⟨fs, s, 0, state⟩⟩
  logged (c : ConfigError) : e = .config c →
    ∃ r, r.level = .error ∧
      atLeast .error (start network fs s (.configured (some path))).records = [r]
  ended (bound : Channel ε → Nat) (o : Options) (app : Entity) :
    o.tlsConfig?.map Str.ofString = some path →
    ending (serve stack bound o app network fs steps).start =
      match e with
      | .config _ => .exited 1
      | e => .escaped (.load e)

/-- A server starts secured: both slots are replaced, the one listener that is opened asks the new
source, and it does so for each connection, whatever becomes of the policy in the settings. -/
structure StartsSecured (path : Str) (policy : SecurityPolicy) : Prop where
  settings : (start network fs s (.configured (some path))).settings = s.replaced path policy
  tried : (start network fs s (.configured (some path))).tried = [s.address]
  result : (start network fs s (.configured (some path))).result =
    if network.refuses then .error .address
    else .ok ⟨.secured (.loaded path), network.bound?.getD s.address⟩
  source : (History.of stack handler network fs s (.configured (some path)) state
    steps).final.settings.effectiveSource? = some (.loaded path)
  treated (i : Nat) (report : Report ε τ) (visit : Visit ε τ) :
    (History.of stack handler network fs s (.configured (some path)) state steps).reports[i]? =
      some report → report.visit? = some visit →
    ∃ a, steps[i]? = some (.arrival a) ∧
      let before := worldAt stack handler s.protocols? (.secured (.loaded path))
        (start network fs s (.configured (some path))) fs state steps i
      visit = receive stack handler s.protocols? (.secured (.loaded path))
        (filesAfter fs (steps.take i)) before.passed before.state a

variable {path? : Option Str} {path : Str}

private theorem startsClear (h : path? = none ∨ path? = some "") :
    StartsClear stack handler network fs s state steps path? := by
  have hresult : (start network fs s (.configured path?)).result =
      if network.refuses then .error .address
      else .ok ⟨.clear, network.bound?.getD s.address⟩ := by
    rw [start_of_unnamed network fs s h]
    split <;> rfl
  refine
    { unread := fun files => ?unread
      settings := ?settings
      tried := ?tried
      result := hresult
      treated := fun i report visit hreport hvisit => ?treated }
  case unread =>
    rw [start_of_unnamed network files s h]
    exact (start_of_unnamed network fs s h).symm
  case settings =>
    rw [start_of_unnamed network fs s h]
    split <;> rfl
  case tried =>
    rw [start_of_unnamed network fs s h]
    split <;> rfl
  case treated =>
    obtain ⟨listening, a, hbegun, ha, rfl⟩ := History.visit_eq_receive hreport hvisit
    have hgate : listening.gate = .clear := by
      rw [hresult] at hbegun
      split at hbegun
      · cases hbegun
      · rw [← Except.ok.inj hbegun]
    refine ⟨a, ha, ?_⟩
    rw [hgate]
    rfl

private theorem failsToStart (hpath : path ≠ "") {e : LoadError}
    (hload : (SecurityPolicy.load fs path).2 = .error e) :
    FailsToStart stack handler network fs s state steps path e := by
  have hbegun (s : Settings) : start network fs s (.configured (some path)) =
      ⟨(SecurityPolicy.load fs path).1, s, [], .error (.load e)⟩ :=
    start_of_load_error network s hpath hload
  refine
    { begun := hbegun s
      history := ?history
      logged := fun c hc => ?logged
      ended := fun bound o app ho => ?ended }
  case history =>
    rw [History.of_error (congrArg Start.result (hbegun s)), hbegun]
  case logged =>
    obtain ⟨intro, hlog⟩ := SecurityPolicy.atLeast_error_load fs path
    rw [hload, hc] at hlog
    rw [hbegun]
    exact ⟨_, rfl, hlog⟩
  case ended =>
    have hstart : (serve stack bound o app network fs steps).start =
        start network fs o.settings (.configured (some path)) := by
      unfold serve
      rw [ho, History.of_error (congrArg Start.result (hbegun o.settings))]
    rw [hstart, hbegun]
    cases e <;> rfl

private theorem startsSecured (hpath : path ≠ "") {policy : SecurityPolicy}
    (hload : (SecurityPolicy.load fs path).2 = .ok policy) :
    StartsSecured stack handler network fs s state steps path policy := by
  obtain ⟨hsettings, htried, hresult⟩ := start_of_load_ok network s hpath hload
  refine
    { settings := hsettings
      tried := htried
      result := hresult
      source := ?source
      treated := fun i report visit hreport hvisit => ?treated }
  case source =>
    have hfinal : (History.of stack handler network fs s (.configured (some path)) state
        steps).final.settings.source? = some (.loaded path) := by
      cases hbegun : (start network fs s (.configured (some path))).result with
      | error e =>
        rw [History.of_error hbegun]
        simp only [hsettings, Settings.replaced]
      | ok listening =>
        simp only [History.of, hbegun, run_source, hsettings, Settings.replaced]
    simp only [Settings.effectiveSource?, hfinal, Option.some_or]
  case treated =>
    obtain ⟨listening, a, hbegun, ha, rfl⟩ := History.visit_eq_receive hreport hvisit
    refine ⟨a, ha, ?_⟩
    rw [start_gate hpath hbegun]

end Starting

/-- Starting is all or nothing. -/
theorem starts_whole_or_not (stack : Stack ε) (handler : Handler ε τ) (network : Network)
    (fs : FileSystem) (s : Settings) (state : τ) (steps : List Step) :
    (∀ path? : Option Str, path? = none ∨ path? = some "" →
      StartsClear stack handler network fs s state steps path?) ∧
    ∀ path : Str, path ≠ "" →
      match (SecurityPolicy.load fs path).2 with
      | .error e => FailsToStart stack handler network fs s state steps path e
      | .ok policy => StartsSecured stack handler network fs s state steps path policy := by
  refine ⟨fun path? h => startsClear stack handler network fs s state steps h, ?_⟩
  intro path hpath
  cases hload : (SecurityPolicy.load fs path).2 with
  | error e => exact failsToStart stack handler network fs s state steps hpath hload
  | ok policy => exact startsSecured stack handler network fs s state steps hpath hload

end Serving

def filledSettings : Settings where
  policy? := some {}
  source? := some (.fixed {})

local instance slotsRoom : Yaml.Room := .ofCalls 960

local instance slotsKeys : Pki.KeyLibrary := .standard

def emptyConfiguration : FileSystem :=
  ({} : FileSystem).write (Bytes.ofString "tls.yaml") (.file [])

/-- With both slots filled, a server serves in the clear without a path, does not start with the
path of a file that does not exist, and is secured by the file with the path of one that does. -/
theorem starts_whole_or_not_slots :
    let begun (path? : Option Str) :=
      start {} emptyConfiguration filledSettings (.configured path?)
    ((begun none).settings = filledSettings ∧
      (begun none).result = .ok ⟨.clear, filledSettings.address⟩) ∧
    ((begun (some "other.yaml")).settings = filledSettings ∧
      (begun (some "other.yaml")).tried = [] ∧
      ∃ r, atLeast .error (begun (some "other.yaml")).records = [r]) ∧
    ((begun (some "tls.yaml")).settings.source? = some (.loaded "tls.yaml") ∧
      (begun (some "tls.yaml")).result =
        .ok ⟨.secured (.loaded "tls.yaml"), filledSettings.address⟩) := by
  have hmissing : (SecurityPolicy.load emptyConfiguration "other.yaml").2 =
      .error (.config (.unreadable "other.yaml" "No such file or directory")) := by decide +kernel
  have hfound : (SecurityPolicy.load emptyConfiguration "tls.yaml").2 = .ok {} := by
    decide +kernel
  obtain ⟨hclear, hnamed⟩ := starts_whole_or_not readyStack
    ⟨fun _ channel served => ⟨[], .ok (), channel, served + 1⟩⟩ {} emptyConfiguration
    filledSettings 0 []
  have hother := hnamed "other.yaml" (by decide)
  rw [hmissing] at hother
  have hsecured := hnamed "tls.yaml" (by decide)
  rw [hfound] at hsecured
  obtain ⟨r, -, hr⟩ := hother.logged _ rfl
  refine ⟨⟨(hclear none (.inl rfl)).settings, (hclear none (.inl rfl)).result⟩,
    ⟨?_, ?_, r, hr⟩, ?_, hsecured.result⟩
  · exact congrArg Start.settings hother.begun
  · exact congrArg Start.tried hother.begun
  · exact congrArg Settings.source? hsecured.settings

end TlsGate.Server
