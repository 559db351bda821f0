import Mathlib.Data.List.Forall2
import TlsGate.Http.Canned
import TlsGate.Proofs.Http.Serving
import TlsGate.Proofs.Server.FailClosed

/-!
Freshness. A server that is started with a configuration file treats each connection as a server
does that is started on the files of that moment and has seen nothing before, apart from the number
in its log records. What it loaded earlier, whom it served earlier and what its settings were plays
no part, and what happens later does not change what became of a connection.
-/

set_option autoImplicit false
set_option relaxedAutoImplicit false

namespace TlsGate

variable {σ τ ε α : Type}

namespace Http

/-! ## Applications without a memory -/

/-- An application whose answers do not depend on what it was asked before. -/
def Application.IsStateless (app : Application τ) : Prop :=
  ∀ request state state', (app.answer request state).1 = (app.answer request state').1

/-- Two runs of an application that keeps its requests take the same course, and the first of them
adds its requests to those kept before. -/
structure Run.Repeats (earlier : List Request) (run run' : Run σ (List Request × τ)) : Prop where
  events : run.events = run'.events
  outcome : run.outcome = run'.outcome
  stream : run.stream = run'.stream
  kept : run.application.1 = earlier ++ run.requests

namespace Run.Repeats

variable {earlier : List Request} {run run' : Run σ (List Request × τ)}

theorem after (h : run.Repeats earlier run') {events : List Event}
    (hevents : events.filterMap Event.request? = []) :
    (run.after events).Repeats earlier (run'.after events) := by
  refine ⟨?_, h.outcome, h.stream, ?_⟩
  · rw [Run.after, Run.after, h.events]
  · rw [Run.application_after, h.kept, Run.requests_after, hevents, List.nil_append]

theorem called {request : Request} (h : run.Repeats (earlier ++ [request]) run')
    (answer : Answer) :
    (run.after [.called request answer]).Repeats earlier
      (run'.after [.called request answer]) := by
  refine ⟨?_, h.outcome, h.stream, ?_⟩
  · rw [Run.after, Run.after, h.events]
  · rw [Run.application_after, h.kept, Run.requests_after, List.append_assoc]
    rfl

end Run.Repeats

section recording

variable {app : Application τ} {io : ByteStream σ} {earlier earlier' : List Request} {a a' : τ}
variable {next next' : σ → Run σ (List Request × τ)}

private theorem stopAt_repeats (fault : StreamFault) (s : σ) :
    (stopAt fault s (earlier, a)).Repeats earlier (stopAt fault s (earlier', a')) := by
  cases fault <;> exact ⟨rfl, rfl, rfl, (List.append_nil earlier).symm⟩

private theorem sendReply_repeats (reply : Transmission) (s : σ)
    (hnext : ∀ t, (next t).Repeats earlier (next' t)) :
    (sendReply io reply s (earlier, a) next).Repeats earlier
      (sendReply io reply s (earlier', a') next') := by
  rw [sendReply_eq, sendReply_eq]
  refine Run.Repeats.after ?_ (sendAll_requests io reply.pieces s)
  unfold Transmission.settle
  split
  · exact stopAt_repeats _ _
  · exact ⟨rfl, rfl, rfl, (List.append_nil earlier).symm⟩
  · split
    · exact hnext _
    · exact ⟨rfl, rfl, rfl, (List.append_nil earlier).symm⟩

private theorem deliver_repeats (head : Head) (request : Request) (answer : Answer) (s : σ)
    (hnext : ∀ t, (next t).Repeats earlier (next' t)) :
    (answer.deliver io head request s (earlier, a) next).Repeats earlier
      (answer.deliver io head request s (earlier', a') next') := by
  cases answer with
  | response r => exact sendReply_repeats _ s hnext
  | nothing => exact ⟨rfl, rfl, rfl, (List.append_nil earlier).symm⟩
  | raised name =>
    simp only [Answer.deliver]
    split
    · exact ⟨rfl, rfl, rfl, (List.append_nil earlier).symm⟩
    · exact (sendReply_repeats _ s hnext).after rfl

private theorem serve_repeats (io : ByteStream σ) (hstateless : app.IsStateless) (limit : Int)
    (steps : Nat) (p : Progress) (i : Inbox) (s : σ) (earlier earlier' : List Request) (a a' : τ) :
    (serve app.recording limit io steps p i s (earlier, a)).Repeats earlier
      (serve app.recording limit io steps p i s (earlier', a')) := by
  induction steps generalizing p i s earlier earlier' a a' with
  | zero => exact ⟨rfl, rfl, rfl, (List.append_nil earlier).symm⟩
  | succ steps ih =>
    cases hread : readOn limit p i with
    | waiting q j =>
      rw [serve_of_waiting hread, serve_of_waiting hread]
      split
      · exact (ih _ _ _ _ _ _ _).after rfl
      · exact (ih _ _ _ _ _ _ _).after rfl
      · exact (stopAt_repeats _ _).after rfl
    | finished =>
      rw [serve_of_finished hread, serve_of_finished hread]
      exact ⟨rfl, rfl, rfl, (List.append_nil earlier).symm⟩
    | refused fault q =>
      rw [serve_of_refused hread, serve_of_refused hread]
      refine Run.Repeats.after (sendReply_repeats _ s fun t => ?_) rfl
      exact ⟨rfl, rfl, rfl, (List.append_nil earlier).symm⟩
    | request head body j =>
      rw [serve_of_request hread, serve_of_request hread]
      -- here alone the state of the application could play a part
      have hanswer : (app.recording.answer (head.request body) (earlier, a)).1 =
          (app.recording.answer (head.request body) (earlier', a')).1 :=
        hstateless (head.request body) a a'
      rw [hanswer]
      refine Run.Repeats.called (deliver_repeats head _ _ s fun t => ?_) _
      exact ih _ _ _ _ _ _ _

end recording

end Http

namespace Server

open Log Policy Tls

/-! ## Handlers without a memory -/

/-- A handler does with each connection the same whatever it has seen before; its state is at most
an account of what it sees. -/
structure Handler.IsStateless (handler : Handler ε τ) (account : τ → List α) : Prop where
  records : ∀ facts? channel s s',
    (handler.handle facts? channel s).records = (handler.handle facts? channel s').records
  outcome : ∀ facts? channel s s',
    (handler.handle facts? channel s).outcome = (handler.handle facts? channel s').outcome
  stream : ∀ facts? channel s s',
    (handler.handle facts? channel s).stream = (handler.handle facts? channel s').stream
  account : ∀ facts? channel s s', ∃ seen,
    account (handler.handle facts? channel s).state = account s ++ seen ∧
      account (handler.handle facts? channel s').state = account s' ++ seen

private theorem httpHandler_isStateless {app : Http.Application τ} (h : app.IsStateless)
    (io : Engine ε)
    (limit : Int) (steps : Channel ε → Nat) :
    (httpHandler io app.recording limit steps).IsStateless Prod.fst := by
  have hrepeats (channel : Channel ε) (s s' : List Http.Request × τ) :=
    Http.serve_repeats (Channel.stream io) h limit (steps channel) .head {} channel s.1 s'.1
      s.2 s'.2
  refine ⟨?_, ?_, ?_, ?_⟩
  · intro facts? channel s s'
    simp only [httpHandler, Http.Run.records, (hrepeats channel s s').events]
  · intro facts? channel s s'
    simp only [httpHandler, (hrepeats channel s s').outcome]
  · intro facts? channel s s'
    exact (hrepeats channel s s').stream
  · intro facts? channel s s'
    refine ⟨_, (hrepeats channel s s').kept, ?_⟩
    rw [Http.Run.requests, (hrepeats channel s s').events]
    exact (hrepeats channel s' s).kept

/-- A probe has no memory, and accounts for what it has seen. -/
theorem Probe.handler_isStateless (io : Engine ε) (probe : Probe) (steps : Channel ε → Nat) :
    (probe.handler io steps).IsStateless id :=
  ⟨fun _ _ _ _ => rfl, fun _ _ _ _ => rfl, fun _ _ _ _ => rfl, fun _ _ _ _ => ⟨_, rfl, rfl⟩⟩

/-! ## Visits that differ in their number alone -/

inductive SameButNumber (m n : Nat) : Record → Record → Prop
  | same (record : Record) : SameButNumber m n record record
  | numbered (level : Level) (text : String) (failure : Option Failure) :
      SameButNumber m n (connectionRecord m level text failure)
        (connectionRecord n level text failure)

/-- Two connections are treated alike: they are both refused for the same reason, or given to the
handler with the same stream and ended alike; their transports have taken the same bytes; and the
same is logged but for the number. -/
structure Visit.TreatedAs (v v' : Visit ε τ) : Prop where
  given : v.given? = v'.given?
  final : v.final = v'.final
  outcome : v.outcome = v'.outcome
  records : List.Forall₂ (SameButNumber v.passed v'.passed) v.records v'.records

private theorem sameButNumber_refl (m n : Nat) (records : List Record) :
    List.Forall₂ (SameButNumber m n) records records :=
  List.forall₂_same.2 fun record _ => .same record

section Treatment

variable {stack : Stack ε} {handler : Handler ε τ} {account : τ → List α}
variable {protocols? : Option (List String)}

variable (stack) in
private theorem handle_treatedAs (h : handler.IsStateless account) (m n : Nat)
    (remote? : Option Remote)
    (channel : Channel ε) (s s' : τ) :
    (handle stack handler m remote? channel s).TreatedAs
      (handle stack handler n remote? channel s') := by
  have hgiven : (handle stack handler m remote? channel s).given? =
      (handle stack handler n remote? channel s').given? := by rw [handle_given, handle_given]
  have hfinal : (handle stack handler m remote? channel s).final =
      (handle stack handler n remote? channel s').final := by
    rw [handle_final, handle_final, h.stream _ _ s s']
  refine ⟨hgiven, hfinal, ?_, ?_⟩
  · simp only [handle, h.outcome _ _ s s']
    split
    · rfl
    · split <;> rfl
  · rw [handle_passed, handle_passed]
    simp only [handle, h.outcome _ _ s s', h.records _ _ s s']
    have hinner := sameButNumber_refl m n (handler.handle (channel.facts? stack) channel s').records
    split
    · exact .cons (.numbered ..) (List.rel_append hinner (.cons (.numbered ..) .nil))
    · split
      · exact .cons (.numbered ..) (List.rel_append hinner .nil)
      · exact .cons (.numbered ..)
          (List.rel_append hinner (.cons (.numbered ..) (.cons (.numbered ..) .nil)))

variable [Yaml.Room] [Pki.KeyLibrary]

variable (stack protocols?) in
private theorem receive_treatedAs (h : handler.IsStateless account) (gate : Gate)
    (files : FileSystem)
    (a : Arrival) (m n : Nat) (s s' : τ) :
    (receive stack handler protocols? gate files m s a).TreatedAs
        (receive stack handler protocols? gate files n s' a) ∧
      ∃ seen, account (receive stack handler protocols? gate files m s a).state =
          account s ++ seen ∧
        account (receive stack handler protocols? gate files n s' a).state =
          account s' ++ seen := by
  simp only [receive]
  split
  · exact ⟨⟨rfl, rfl, rfl, sameButNumber_refl ..⟩, [], by simp, by simp⟩
  · rename_i channel _
    have htreated := handle_treatedAs stack h (m + 1) (n + 1) a.remote? channel s s'
    refine ⟨⟨htreated.given, htreated.final, htreated.outcome, ?_⟩, ?_⟩
    · exact List.rel_append (sameButNumber_refl ..) htreated.records
    · obtain ⟨seen, hs, hs'⟩ := h.account (channel.facts? stack) channel s s'
      exact ⟨seen, by rw [handle_state, hs], by rw [handle_state, hs']⟩

private theorem receive_final (h : handler.IsStateless account) {gate : Gate} {files : FileSystem}
    {a : Arrival} {m : Nat} {s : τ} {channel : Channel ε}
    (hgiven : (receive stack handler protocols? gate files m s a).given? = some channel) (s' : τ) :
    (receive stack handler protocols? gate files m s a).final =
      (handler.handle (channel.facts? stack) channel s').stream.close := by
  have hpass := (receive_given_iff _ channel).mp hgiven
  simp only [receive, hpass, handle_final]
  rw [h.stream _ _ s s']

variable (stack handler protocols?) in
private theorem receive_of_load_error {files : FileSystem} {path : Str} {e : Config.LoadError}
    (hload : (SecurityPolicy.load files path).2 = .error e) (a : Arrival) (m : Nat) (s : τ) :
    let visit := receive stack handler protocols? (.secured (.loaded path)) files m s a
    visit.given? = none ∧ visit.outcome = .error (.inl (.context (.load e))) ∧
      visit.final = .clear a.transport.close ∧ visit.state = s ∧ visit.passed = m := by
  obtain ⟨records, hpair⟩ : ∃ records, SecurityPolicy.load files path = (records, .error e) :=
    ⟨_, Prod.ext rfl hload⟩
  have hpass : ((Gate.secured (.loaded path)).pass stack protocols? files a).result =
      .error (.context (.load e), a.transport) := by
    simp only [Gate.pass, PolicySource.policy, hpair]
  simp only [receive, hpass, and_self]

end Treatment

/-! ## What came before and what comes after -/

section Runs

variable [Yaml.Room] [Pki.KeyLibrary] (stack : Stack ε) (handler : Handler ε τ)
  (protocols? : Option (List String)) (gate : Gate)

private theorem run_take (steps : List Step) (w : World τ) (i : Nat) {report : Report ε τ}
    (h : (run stack handler protocols? gate steps w).1[i]? = some report) :
    (run stack handler protocols? gate (steps.take i) w).2 =
      worldAfter stack handler protocols? gate w (steps.take i) := by
  induction steps generalizing w i with
  | nil => simp [run] at h
  | cons s rest ih =>
    cases i with
    | zero => rfl
    | succ i =>
      simp only [run, List.take_succ_cons, worldAfter, List.foldl_cons] at h ⊢
      split at h
      -- nothing is reported after a step that ends the process
      · simp at h
      · rename_i hgoes
        rw [if_neg hgoes]
        exact ih _ i (by simpa using h)

private theorem run_take_append (steps later : List Step) (w : World τ) (i : Nat)
    {report : Report ε τ}
    (h : (run stack handler protocols? gate steps w).1[i]? = some report) :
    (run stack handler protocols? gate (steps.take (i + 1) ++ later) w).1[i]? = some report := by
  induction steps generalizing w i with
  | nil => simp [run] at h
  | cons s rest ih =>
    simp only [run, List.take_succ_cons, List.cons_append] at h ⊢
    cases i with
    | zero =>
      split at h <;> rename_i hexits
      · rw [if_pos hexits]
        exact h
      · rw [if_neg hexits]
        exact h
    | succ i =>
      split at h <;> rename_i hexits
      · simp at h
      · rw [if_neg hexits]
        exact ih _ i (by simpa using h)

private theorem run_cons_zero (s : Step) (rest : List Step) (w : World τ) :
    (run stack handler protocols? gate (s :: rest) w).1[0]? =
      some (step stack handler protocols? gate w s).1 := by
  simp only [run]
  split <;> rfl

end Runs

private theorem start_of_load [Yaml.Room] {network : Network} {fs : FileSystem} {path : Str}
    {policy : SecurityPolicy} (settings : Settings) (hpath : path ≠ "")
    (hload : (SecurityPolicy.load fs path).2 = .ok policy) (hnetwork : network.refuses = false) :
    ∃ listening, (start network fs settings (.configured (some path))).result = .ok listening := by
  have hnamed : Settings.namedPath? (some path) = some path := by
    simp [Settings.namedPath?, Option.filter, hpath]
  obtain ⟨records, result⟩ : ∃ records, SecurityPolicy.load fs path = (records, .ok policy) :=
    ⟨_, Prod.ext rfl hload⟩
  exact ⟨_, by
    simp only [start, Settings.prepare, hnamed, result, Settings.securedGate,
      Settings.effectiveSource?, Option.some_or, hnetwork, Bool.false_eq_true, if_false]
    rfl⟩

/-! ## Freshness -/

/-- A server that is started with a configuration file, and its run. -/
abbrev History.ofFile [Yaml.Room] [Pki.KeyLibrary] (stack : Stack ε) (handler : Handler ε τ)
    (network : Network)
    (fs : FileSystem) (settings : Settings) (path : Str) (state : τ) (steps : List Step) :
    History ε τ :=
  History.of stack handler network fs settings (.configured (some path)) state steps

def firstWorld [Yaml.Room] (network : Network) (fs : FileSystem) (settings : Settings) (path : Str)
    (state : τ) : World τ :=
  ⟨fs, (start network fs settings (.configured (some path))).settings, 0, state⟩

section History

variable [Yaml.Room] [Pki.KeyLibrary] (stack : Stack ε) (handler : Handler ε τ)
  {network : Network} {fs : FileSystem}
variable {settings : Settings} {path : Str} (state : τ) (steps : List Step)

private theorem ofFile_eq_run {listening : Listening} (hpath : path ≠ "")
    (hstart : (start network fs settings (.configured (some path))).result = .ok listening) :
    ((History.ofFile stack handler network fs settings path state steps).reports,
      (History.ofFile stack handler network fs settings path state steps).final) =
      run stack handler settings.protocols? (.secured (.loaded path)) steps
        (firstWorld network fs settings path state) := by
  simp only [History.ofFile, History.of, hstart, start_gate hpath hstart, firstWorld]

private theorem exists_listening {i : Nat} {report : Report ε τ}
    (hreport : (History.ofFile stack handler network fs settings path state steps).reports[i]? =
      some report) :
    ∃ listening, (start network fs settings (.configured (some path))).result = .ok listening := by
  cases hstart : (start network fs settings (.configured (some path))).result with
  | ok listening => exact ⟨listening, rfl⟩
  | error e => simp [History.ofFile, History.of, hstart] at hreport

variable (settings) in
private theorem exists_first_visit {policy : SecurityPolicy} (hpath : path ≠ "")
    (hload : (SecurityPolicy.load fs path).2 = .ok policy) (hnetwork : network.refuses = false)
    (a : Arrival) (later : List Step) :
    ∃ report, (History.ofFile stack handler network fs settings path state
        (.arrival a :: later)).reports[0]? = some report ∧
      report.visit? = some (receive stack handler settings.protocols? (.secured (.loaded path))
        fs 0 state a) := by
  obtain ⟨listening, hstart⟩ := start_of_load settings hpath hload hnetwork
  have hrun := congrArg Prod.fst (ofFile_eq_run stack handler state (.arrival a :: later)
    hpath hstart)
  simp only at hrun
  rw [hrun, run_cons_zero]
  exact ⟨_, rfl, rfl⟩

end History

/-- A server that is started with a configuration file treats each connection afresh. If the policy
loads from the files of the moment, the connection is treated as the first one is of any server that
is started on those files, with whatever settings, before whatever happens next; if the policy does
not load, the connection is refused and the handler is not called. A connection that is accepted
ends as the handler leaves the stream it is given, and stays so whatever happens later. -/
theorem treated_afresh [Yaml.Room] [Pki.KeyLibrary] (stack : Stack ε) (handler : Handler ε τ)
    (account : τ → List α) (hstateless : handler.IsStateless account) (network : Network)
    (fs : FileSystem)
    (settings : Settings) (path : Str) (state : τ) (steps : List Step) (i : Nat)
    (report : Report ε τ) (visit : Visit ε τ) (hpath : path ≠ "")
    (hreport : (History.ofFile stack handler network fs settings path state steps).reports[i]? =
      some report)
    (hvisit : report.visit? = some visit) :
    let files := filesAfter fs (steps.take i)
    let before := (History.ofFile stack handler network fs settings path state
      (steps.take i)).final
    ∃ a, steps[i]? = some (.arrival a) ∧
      (∀ policy, (SecurityPolicy.load files path).2 = .ok policy →
        ∀ (network' : Network) (settings' : Settings) (state' : τ) (later : List Step),
          network'.refuses = false → settings'.protocols? = settings.protocols? →
          ∃ report' visit' seen,
            (History.ofFile stack handler network' files settings' path state'
              (.arrival a :: later)).reports[0]? = some report' ∧
            report'.visit? = some visit' ∧ visit.TreatedAs visit' ∧
            account visit.state = account before.state ++ seen ∧
            account visit'.state = account state' ++ seen) ∧
      (∀ e, (SecurityPolicy.load files path).2 = .error e →
        visit.given? = none ∧ visit.outcome = .error (.inl (.context (.load e))) ∧
          visit.final = .clear a.transport.close ∧ visit.state = before.state ∧
          visit.passed = before.passed) ∧
      (∀ channel, visit.given? = some channel → ∀ state',
        visit.final = (handler.handle (channel.facts? stack) channel state').stream.close) ∧
      ∀ later, (History.ofFile stack handler network fs settings path state
        (steps.take (i + 1) ++ later)).reports[i]? = some report := by
  intro files before
  obtain ⟨listening, hstart⟩ := exists_listening _ _ _ _ hreport
  have hrun (steps : List Step) := ofFile_eq_run stack handler state steps hpath hstart
  have hreport : (run stack handler settings.protocols? (.secured (.loaded path)) steps
      (firstWorld network fs settings path state)).1[i]? = some report := by
    rw [← hrun]
    exact hreport
  -- all that a step depends on is the world before it, and of that a connection only on the files
  have hbefore : before = worldAfter stack handler settings.protocols? (.secured (.loaded path))
      (firstWorld network fs settings path state) (steps.take i) :=
    (congrArg Prod.snd (hrun (steps.take i))).trans (run_take _ _ _ _ _ _ _ hreport)
  have hfs : before.fs = files := by
    rw [hbefore, worldAfter_fs]
    rfl
  obtain ⟨s, hs, hstep⟩ := run_report _ _ _ _ _ _ _ _ hreport
  rw [← hbefore] at hstep
  subst hstep
  cases s with
  | edit e => simp [step] at hvisit
  | setPolicy options =>
    simp only [step] at hvisit
    split at hvisit <;> simp at hvisit
  | arrival a =>
    simp only [step, hfs, Option.some.injEq] at hvisit
    subst hvisit
    refine ⟨a, hs, ?_, ?_, ?_, ?_⟩
    · intro policy hload network' settings' state' later hnetwork hprotocols
      obtain ⟨report', hreport', hvisit'⟩ := exists_first_visit stack handler
        settings' state' hpath hload hnetwork a later
      rw [hprotocols] at hvisit'
      obtain ⟨htreated, seen, hseen, hseen'⟩ := receive_treatedAs stack
        settings.protocols? hstateless (.secured (.loaded path)) files a
        before.passed 0 before.state state'
      exact ⟨report', _, seen, hreport', hvisit', htreated, hseen, hseen'⟩
    · intro e hload
      exact receive_of_load_error stack handler settings.protocols? hload a before.passed
        before.state
    · intro channel hgiven state'
      exact receive_final hstateless hgiven state'
    · intro later
      have happend := run_take_append _ _ _ _ _ later _ _ hreport
      rw [← hrun] at happend
      exact happend

/-! ### A rotation -/

/-- Engines that complete each handshake at once and hand on what they are given, in both
directions; the state is what has arrived, and whether more will. -/
def transparentStack : Stack (Bytes × Bool) where
  engine :=
    { handshake := fun e => { attempt := .done (), next := e }
      receive := fun size e =>
        if e.1 = [] then { attempt := if e.2 then .closed else .wantRead, next := e }
        else { attempt := .done (e.1.take size), next := (e.1.drop size, e.2) }
      send := fun data e => { attempt := .done data.length, emitted := data, next := e }
      feed := fun data e => (e.1 ++ data, e.2)
      finish := fun e => (e.1, true) }
  start := fun _ _ => ([], false)
  facts := fun _ => ⟨.v13, none, none⟩

def helloHandler : Handler (Bytes × Bool) (List Http.Request × Nat) :=
  httpHandler transparentStack.engine (Http.canned [.hello]).recording 16 fun _ => 8

private theorem helloHandler_isStateless : helloHandler.IsStateless Prod.fst := by
  refine httpHandler_isStateless (fun request state state' => ?_) _ _ _
  cases state <;> cases state' <;> rfl

def visitor : Arrival where
  transport := { items := [.data (Bytes.ofString "GET /a HTTP/1.1\r\nHost: b\r\n\r\n")] }

local instance rotationRoom : Yaml.Room := .ofCalls 960

local instance rotationKeys : Pki.KeyLibrary := .standard

def rotationSteps : List Step :=
  [.arrival visitor,
    .edit (.write (Bytes.ofString "tls.yaml")
      (.file (Bytes.ofString "tlsConfig:\n  clientAuth: RequestClientCert\n"))),
    .arrival visitor]

/-- A server that has an empty configuration file at first. -/
abbrev rotationHistory (steps : List Step) : History (Bytes × Bool) (List Http.Request × Nat) :=
  History.ofFile transparentStack helloHandler {}
    (({} : FileSystem).write (Bytes.ofString "tls.yaml") (.file [])) {} "tls.yaml" ([], 0) steps

def rotatedFiles : FileSystem :=
  filesAfter (({} : FileSystem).write (Bytes.ofString "tls.yaml") (.file [])) (rotationSteps.take 2)

/-- The second connection of a server is treated as the first one of a server that is started on the
new file, and one more request is handled. -/
theorem treated_afresh_rotation :
    ("tls.yaml" : Str) ≠ "" ∧ helloHandler.IsStateless Prod.fst ∧
    (SecurityPolicy.load rotatedFiles "tls.yaml").2 = .ok { clientAuth := .request } ∧
    ∃ report visit, (rotationHistory rotationSteps).reports[2]? = some report ∧
      report.visit? = some visit ∧ (visit.given?.isSome ∧ visit.state.1.length = 2) ∧
      ∃ report' visit', (History.ofFile transparentStack helloHandler {} rotatedFiles {} "tls.yaml"
          ([], 5) [.arrival visitor]).reports[0]? = some report' ∧
        report'.visit? = some visit' ∧ visit.TreatedAs visit' ∧
        visit.state.1 =
          (rotationHistory (rotationSteps.take 2)).final.state.1 ++ visit'.state.1 := by
  have hpath : ("tls.yaml" : Str) ≠ "" := by decide
  have hload : (SecurityPolicy.load rotatedFiles "tls.yaml").2 =
      .ok { clientAuth := .request } := by decide +kernel
  have hlast : ((rotationHistory rotationSteps).reports[2]?.bind (·.visit?)).map
      (fun visit => (visit.given?.isSome, visit.state.1.length)) = some (true, 2) := by
    decide +kernel
  simp only [Option.map_eq_some_iff, Option.bind_eq_some_iff, Prod.mk.injEq] at hlast
  obtain ⟨visit, ⟨report, hreport, hvisit⟩, hseen⟩ := hlast
  obtain ⟨a, ha, hfresh, -⟩ :=
    treated_afresh transparentStack helloHandler Prod.fst helloHandler_isStateless {}
      (({} : FileSystem).write (Bytes.ofString "tls.yaml") (.file [])) {} "tls.yaml" ([], 0)
      rotationSteps 2 report visit hpath hreport hvisit
  obtain rfl : visitor = a := by simpa [rotationSteps] using ha
  obtain ⟨report', visit', seen, hreport', hvisit', htreated, hstate, hstate'⟩ :=
    hfresh _ hload {} {} ([], 5) [] rfl rfl
  refine ⟨hpath, helloHandler_isStateless, hload, report, visit, hreport, hvisit, hseen, report',
    visit', hreport', hvisit', htreated, ?_⟩
  rw [hstate, hstate', List.nil_append]

end Server

end TlsGate
