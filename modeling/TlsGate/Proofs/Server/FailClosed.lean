import TlsGate.Proofs.Server.StreamUse
import TlsGate.Server.Overlap

/-!
A server that is started with a configuration file fails closed. Whatever happens to the files while
it runs, a connection is given to the handler exactly if the policy loads from the files of that
moment, a context is made from it and the handshake completes; and the stream that the handler is
given stays behind the engine of that handshake.
-/

set_option autoImplicit false
set_option relaxedAutoImplicit false

namespace TlsGate.Server

open Policy Tls

variable {ε τ : Type}

/-- The files after steps: only edits change them. -/
def filesAfter (fs : FileSystem) (steps : List Step) : FileSystem :=
  steps.foldl (fun fs s => match s with
    | .edit e => e.apply fs
    | _ => fs) fs

/-- A transport that has taken nothing from the server, or else bytes that the engine for some
context has emitted. -/
def OnlyEmitted (stack : Stack ε) (a : Arrival) (t : Script) : Prop :=
  t.output = a.transport.output ∨
    ∃ context e emitted, stack.engine.Driven (stack.start context a.offer) emitted e ∧
      t.output <+: a.transport.output ++ emitted

theorem start_gate [Yaml.Room] {network : Network} {fs : FileSystem} {settings : Settings}
    {path : Str} {listening : Listening} (hpath : path ≠ "")
    (h : (start network fs settings (.configured (some path))).result = .ok listening) :
    listening.gate = .secured (.loaded path) := by
  have hnamed : Settings.namedPath? (some path) = some path := by
    simp [Settings.namedPath?, Option.filter, hpath]
  simp only [start, Settings.prepare, hnamed] at h
  split at h
  · simp at h
  · rename_i s gate hprepare
    split at hprepare
    · simp at hprepare
    · simp only [Settings.securedGate, Settings.effectiveSource?, Option.some_or, Prod.mk.injEq,
        Except.ok.injEq] at hprepare
      split at h
      · simp at h
      · simp only [Except.ok.injEq] at h
        rw [← h]
        exact hprepare.2.2.symm

/-- What becomes of a connection that the gate has let pass or refused. -/
def Passage.visit (stack : Stack ε) (handler : Handler ε τ) (a : Arrival) (passed : Nat)
    (state : τ) (p : Passage ε) : Visit ε τ :=
  match p.result with
  | .error (refusal, transport) => .refused p.records a.remote? refusal transport passed state
  | .ok channel =>
    let visit := handle stack handler (passed + 1) a.remote? channel state
    { visit with records := p.records ++ visit.records }

section Handling

variable {stack : Stack ε} {handler : Handler ε τ} {state : τ} (number : Nat)
variable (remote? : Option Remote) (channel : Channel ε)

private theorem handle_cases :
    ∃ records outcome, handle stack handler number remote? channel state =
      ⟨records, some channel, (handler.handle (channel.facts? stack) channel state).stream.close,
        outcome, number, (handler.handle (channel.facts? stack) channel state).state⟩ := by
  simp only [handle]
  split
  · exact ⟨_, _, rfl⟩
  · split <;> exact ⟨_, _, rfl⟩

theorem handle_given :
    (handle stack handler number remote? channel state).given? = some channel := by
  obtain ⟨records, outcome, h⟩ := handle_cases number remote? channel
  rw [h]

theorem handle_final :
    (handle stack handler number remote? channel state).final =
      (handler.handle (channel.facts? stack) channel state).stream.close := by
  obtain ⟨records, outcome, h⟩ := handle_cases number remote? channel
  rw [h]

theorem handle_passed :
    (handle stack handler number remote? channel state).passed = number := by
  obtain ⟨records, outcome, h⟩ := handle_cases number remote? channel
  rw [h]

theorem handle_state (state : τ) :
    (handle stack handler number remote? channel state).state =
      (handler.handle (channel.facts? stack) channel state).state := by
  obtain ⟨records, outcome, h⟩ := handle_cases number remote? channel
  rw [h]

end Handling

section Passages

variable {stack : Stack ε} {handler : Handler ε τ} {a : Arrival} {passed : Nat} {state : τ}

theorem visit_given_iff (p : Passage ε) (channel : Channel ε) :
    (p.visit stack handler a passed state).given? = some channel ↔ p.result = .ok channel := by
  unfold Passage.visit
  rcases p.result with ⟨refusal, transport⟩ | channel'
  · simp [Visit.refused]
  · simp [handle_given]

private theorem visit_of_ok {p : Passage ε} {channel : Channel ε} (h : p.result = .ok channel) :
    (p.visit stack handler a passed state).final =
        (handler.handle (channel.facts? stack) channel state).stream.close ∧
      (p.visit stack handler a passed state).state =
        (handler.handle (channel.facts? stack) channel state).state := by
  simp only [Passage.visit, h]
  exact ⟨handle_final .., handle_state ..⟩

theorem visit_of_error {p : Passage ε} {refusal : Refusal} {transport : Script}
    (h : p.result = .error (refusal, transport)) :
    p.visit stack handler a passed state =
      .refused p.records a.remote? refusal transport passed state := by
  simp only [Passage.visit, h]

private theorem exists_error_of_not_given {p : Passage ε}
    (h : (p.visit stack handler a passed state).given? = none) :
    ∃ refusal transport, p.result = .error (refusal, transport) := by
  cases hresult : p.result with
  | error refused => exact ⟨_, _, rfl⟩
  | ok channel =>
    rw [(visit_given_iff p channel).mpr hresult] at h
    cases h

end Passages

private theorem policyAt_at [Yaml.Room] (source : PolicySource) (files : FileSystem) :
    source.policyAt (.at files) = source.policy files := by
  cases source <;> rfl

section Secured

variable [Yaml.Room] [Pki.KeyLibrary]

/-- What a running server has at hand after steps. -/
def worldAfter (stack : Stack ε) (handler : Handler ε τ) (protocols? : Option (List String))
    (gate : Gate) (w : World τ) (steps : List Step) : World τ :=
  steps.foldl (fun w s => (step stack handler protocols? gate w s).2) w

/-- On the files as they are read the policy loads, a context is made from it, and the handshake
completes and leaves this stream. -/
structure Secures (stack : Stack ε) (protocols? : Option (List String)) (path : Str)
    (g : Glances) (a : Arrival) (policy : SecurityPolicy) (context : Context)
    (channel : Channel ε) : Prop where
  loaded : (SecurityPolicy.loadAt g.config g.authorities path).2 = .ok policy
  made : policy.context g.own protocols? = .ok context
  completed : stack.wrap context a.offer a.transport = (none, channel)

section Runs

variable (stack : Stack ε) (handler : Handler ε τ) (protocols? : Option (List String)) (gate : Gate)

private theorem step_fs (w : World τ) (s : Step) :
    (step stack handler protocols? gate w s).2.fs = filesAfter w.fs [s] := by
  cases s with
  | arrival a => rfl
  | edit e => rfl
  | setPolicy options =>
    simp only [step]
    split <;> rfl

theorem worldAfter_fs (w : World τ) (steps : List Step) :
    (worldAfter stack handler protocols? gate w steps).fs = filesAfter w.fs steps := by
  induction steps generalizing w with
  | nil => rfl
  | cons s rest ih =>
    simp only [worldAfter, List.foldl_cons] at ih ⊢
    rw [ih, step_fs]
    simp only [filesAfter, List.foldl_cons, List.foldl_nil]

theorem run_report (steps : List Step) (w : World τ) (i : Nat) (report : Report ε τ)
    (h : (run stack handler protocols? gate steps w).1[i]? = some report) :
    ∃ s, steps[i]? = some s ∧ report =
      (step stack handler protocols? gate
        (worldAfter stack handler protocols? gate w (steps.take i)) s).1 := by
  induction steps generalizing w i with
  | nil => simp [run] at h
  | cons s rest ih =>
    cases i with
    | zero =>
      refine ⟨s, rfl, ?_⟩
      simp only [run] at h
      split at h <;> simpa [worldAfter] using h.symm
    | succ i =>
      simp only [run] at h
      split at h
      · simp at h
      · simp only [List.getElem?_cons_succ] at h
        obtain ⟨s', hs', hr⟩ := ih _ _ h
        exact ⟨s', by simpa using hs', by simpa [worldAfter] using hr⟩

end Runs

section Connections

/-- Whether a connection passes the gate if its reads see the files like this. -/
def PolicySource.passAt (stack : Stack ε) (protocols? : Option (List String)) (g : Glances)
    (a : Arrival) (source : PolicySource) : Passage ε :=
  match source.contextAt g protocols? with
  | (records, .error e) => ⟨records, .error (.context e, a.transport)⟩
  | (records, .ok context) =>
    match stack.wrap context a.offer a.transport with
    | (some fault, channel) => ⟨records, .error (.handshake fault, channel.transport)⟩
    | (none, channel) => ⟨records, .ok channel⟩

/-- What becomes of a connection to a server that asks for a policy from a file. The handler is
given it exactly if it is secured, and is run on that stream alone. Its transport has taken nothing
but what an engine has emitted. If it is refused, it is only closed, and told of by the gate. -/
structure Visit.FailsClosed (stack : Stack ε) (handler : Handler ε τ)
    (protocols? : Option (List String)) (path : Str) (g : Glances) (a : Arrival)
    (visit : Visit ε τ) : Prop where
  given : ∀ channel, visit.given? = some channel ↔
    ∃ policy context, Secures stack protocols? path g a policy context channel
  handled : ∀ channel, visit.given? = some channel → ∃ state,
    visit.final = (handler.handle (channel.facts? stack) channel state).stream.close ∧
      visit.state = (handler.handle (channel.facts? stack) channel state).state
  emitted : (visit.given?.isSome → handler.UsesStream stack.engine) →
    OnlyEmitted stack a visit.final.transport
  refused : visit.given? = none → ∃ refusal transport,
    ((PolicySource.loaded path).passAt stack protocols? g a).result =
        .error (refusal, transport) ∧
      visit = .refused ((PolicySource.loaded path).policyAt g).1 a.remote? refusal transport
        visit.passed visit.state

variable {stack : Stack ε} {protocols? : Option (List String)} {path : Str} {g : Glances}
variable {source : PolicySource} {a : Arrival}

private theorem passAt_records :
    (source.passAt stack protocols? g a).records = (source.policyAt g).1 := by
  simp only [PolicySource.passAt, PolicySource.contextAt]
  rcases source.policyAt g with ⟨records, e | policy⟩
  · rfl
  · cases hcontext : policy.context g.own protocols? with
    | error e => simp only [hcontext]
    | ok context =>
      simp only [hcontext]
      rcases stack.wrap context a.offer a.transport with ⟨_ | fault, channel⟩ <;> rfl

theorem passAt_eq_ok_iff (channel : Channel ε) :
    (source.passAt stack protocols? g a).result = .ok channel ↔
      ∃ policy context, (source.policyAt g).2 = .ok policy ∧
        policy.context g.own protocols? = .ok context ∧
        stack.wrap context a.offer a.transport = (none, channel) := by
  simp only [PolicySource.passAt, PolicySource.contextAt]
  rcases source.policyAt g with ⟨records, e | policy⟩
  · simp
  · cases hcontext : policy.context g.own protocols? with
    | error e => simp [hcontext]
    | ok context =>
      rcases hwrap : stack.wrap context a.offer a.transport with ⟨_ | fault, channel'⟩ <;>
        simp [hcontext, hwrap]

theorem pass_eq_passAt (files : FileSystem) :
    (Gate.secured source).pass stack protocols? files a =
      source.passAt stack protocols? (.at files) a := by
  simp only [Gate.pass, PolicySource.passAt, PolicySource.contextAt, policyAt_at]
  rcases source.policy files with ⟨records, e | policy⟩
  · rfl
  · cases hcontext : policy.context (.at files) protocols? with
    | error e => simp only [Glances.at, hcontext]
    | ok context =>
      rcases hwrap : stack.wrap context a.offer a.transport with ⟨_ | fault, channel⟩ <;>
        simp only [Glances.at, hcontext, hwrap]

theorem pass_eq_ok_iff_of_source {files : FileSystem} (channel : Channel ε) :
    ((Gate.secured source).pass stack protocols? files a).result = .ok channel ↔
      ∃ policy context, (source.policy files).2 = .ok policy ∧
        policy.context (.at files) protocols? = .ok context ∧
        stack.wrap context a.offer a.transport = (none, channel) := by
  rw [pass_eq_passAt, passAt_eq_ok_iff, policyAt_at]
  rfl

private theorem onlyEmitted_of_refused {refusal : Refusal} {transport : Script}
    (h : (source.passAt stack protocols? g a).result = .error (refusal, transport)) :
    OnlyEmitted stack a transport := by
  simp only [PolicySource.passAt] at h
  split at h
  · simp only [Except.error.injEq, Prod.mk.injEq] at h
    exact .inl (by rw [← h.2])
  · rename_i records context hcontext
    split at h
    · rename_i fault channel hwrap
      simp only [Except.error.injEq, Prod.mk.injEq] at h
      have hm := stack.wrap_mediated context a.offer a.transport
      rw [hwrap] at hm
      obtain ⟨e, emitted, -, hd, hp⟩ := hm.output_le_emitted
      exact .inr ⟨context, e, emitted, hd, h.2 ▸ hp⟩
    · simp at h

theorem Secures.isSealed {policy : SecurityPolicy} {context : Context} {channel : Channel ε}
    (h : Secures stack protocols? path g a policy context channel) {reached : Channel ε}
    (huses : channel.Uses stack.engine reached) :
    reached.IsSealed stack.engine (stack.start context a.offer) a.transport.output := by
  have hm := stack.wrap_mediated context a.offer a.transport
  rw [h.completed] at hm
  exact (huses.mediated hm).isSealed

variable {handler : Handler ε τ} {passed : Nat} {state : τ}

theorem receive_eq_visit (gate : Gate) (files : FileSystem) :
    receive stack handler protocols? gate files passed state a =
      (gate.pass stack protocols? files a).visit stack handler a passed state := by
  simp only [receive, Passage.visit]
  rcases (gate.pass stack protocols? files a).result with ⟨refusal, transport⟩ | channel <;> rfl

theorem receive_given_iff {files : FileSystem} (gate : Gate) (channel : Channel ε) :
    (receive stack handler protocols? gate files passed state a).given? = some channel ↔
      (gate.pass stack protocols? files a).result = .ok channel := by
  rw [receive_eq_visit, visit_given_iff]

theorem visit_failsClosed :
    ((PolicySource.loaded path).passAt stack protocols? g a |>.visit stack handler a passed
      state).FailsClosed stack handler protocols? path g a where
  given channel := by
    rw [visit_given_iff, passAt_eq_ok_iff]
    exact ⟨fun ⟨policy, context, hload, hmade, hwrap⟩ => ⟨policy, context, hload, hmade, hwrap⟩,
      fun ⟨policy, context, h⟩ => ⟨policy, context, h.loaded, h.made, h.completed⟩⟩
  handled channel hgiven := ⟨state, visit_of_ok ((visit_given_iff _ channel).mp hgiven)⟩
  emitted huse := by
    cases hresult : ((PolicySource.loaded path).passAt stack protocols? g a).result with
    | error refused =>
      have ho : OnlyEmitted stack a refused.2 := onlyEmitted_of_refused hresult
      rw [visit_of_error hresult]
      exact ho
    | ok channel =>
      obtain ⟨policy, context, -, -, hwrap⟩ := (passAt_eq_ok_iff channel).mp hresult
      have hm := stack.wrap_mediated context a.offer a.transport
      rw [hwrap] at hm
      have hu := huse (Option.isSome_of_eq_some ((visit_given_iff _ channel).mpr hresult))
      have hf := (hu (channel.facts? stack) channel state).mediated hm
      obtain ⟨e, emitted, -, hd, hp⟩ := hf.output_le_emitted
      refine .inr ⟨context, e, emitted, hd, ?_⟩
      simpa only [(visit_of_ok hresult).1, Channel.close_output] using hp
  refused hgiven := by
    obtain ⟨refusal, transport, hresult⟩ := exists_error_of_not_given hgiven
    refine ⟨refusal, transport, hresult, ?_⟩
    rw [visit_of_error hresult, passAt_records]
    rfl

end Connections

/-- A server that is started with a configuration file fails closed if its connections come one
after the other. Each is treated on the files of its moment, whatever steps came before. If it is
not given to the handler, the handler has no part in it: it would be treated alike with any other,
and what was there before is unchanged. -/
theorem report_failsClosed (stack : Stack ε) (handler : Handler ε τ) (network : Network)
    (fs : FileSystem) (settings : Settings) (path : Str) (state : τ) (steps : List Step)
    (i : Nat) (report : Report ε τ) (visit : Visit ε τ) (hpath : path ≠ "")
    (hreport : (History.of stack handler network fs settings (.configured (some path)) state
      steps).reports[i]? = some report)
    (hvisit : report.visit? = some visit) :
    let first : World τ :=
      ⟨fs, (start network fs settings (.configured (some path))).settings, 0, state⟩
    let gate := Gate.secured (.loaded path)
    let before := worldAfter stack handler settings.protocols? gate first (steps.take i)
    ∃ a, steps[i]? = some (.arrival a) ∧
      visit.FailsClosed stack handler settings.protocols? path
        (.at (filesAfter fs (steps.take i))) a ∧
      (visit.given? = none → visit.passed = before.passed ∧ visit.state = before.state ∧
        ∀ handler', receive stack handler' settings.protocols? gate before.fs before.passed
          before.state a = visit) := by
  intro first gate before
  simp only [History.of] at hreport
  split at hreport
  · simp at hreport
  · rename_i listening hstart
    rw [start_gate hpath hstart] at hreport
    obtain ⟨s, hs, rfl⟩ := run_report _ _ _ _ _ _ _ _ hreport
    cases s with
    | edit e => simp [step] at hvisit
    | setPolicy options =>
      simp only [step] at hvisit
      split at hvisit <;> simp at hvisit
    | arrival a =>
      simp only [step, Option.some.injEq] at hvisit
      have hfiles : before.fs = filesAfter fs (steps.take i) := worldAfter_fs ..
      have hpassed : visit = ((PolicySource.loaded path).passAt stack settings.protocols?
          (.at before.fs) a).visit stack handler a before.passed before.state := by
        rw [← hvisit, receive_eq_visit, pass_eq_passAt]
      refine ⟨a, hs, ?_, fun hgiven => ?_⟩
      · rw [hpassed, hfiles]
        exact visit_failsClosed
      · rw [hpassed] at hgiven ⊢
        obtain ⟨refusal, transport, hresult⟩ := exists_error_of_not_given hgiven
        rw [visit_of_error hresult]
        refine ⟨rfl, rfl, fun handler' => ?_⟩
        rw [receive_eq_visit, pass_eq_passAt, visit_of_error hresult]

end Secured

def readyStack : Stack Unit where
  engine :=
    { handshake := fun _ => { attempt := .done (), next := () }
      receive := fun _ _ => { attempt := .wantRead, next := () }
      send := fun data _ => { attempt := .done data.length, emitted := data, next := () }
      feed := fun _ _ => ()
      finish := fun _ => () }
  start := fun _ _ => ()
  facts := fun _ => ⟨.v13, none, none⟩

end TlsGate.Server
