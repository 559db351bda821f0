import Mathlib.Logic.Basic
import TlsGate.Proofs.Policy.Loading
import TlsGate.Proofs.Server.Arrivals
import TlsGate.Proofs.Server.FailClosed
import TlsGate.Proofs.Tls.Transport

/-!
Disposal of connections. Whatever comes of asking for a policy, of making a context and of the
handshake, and however the handler ends, the server goes on to the next connection; the transport of
each connection is closed once; and each connection is either rejected, which is logged once and
leaves no other trace, or served under the next number.
-/

set_option autoImplicit false
set_option relaxedAutoImplicit false

namespace TlsGate

variable {σ τ ε : Type}

/-! ## Handlers that leave their streams open -/

namespace Http

def Application.NeverExits (app : Application τ) : Prop :=
  ∀ request state name, (app.answer request state).1 = .raised name →
    (Failure.raised name).exits = false

section exits

variable {app : Application τ} {io : ByteStream σ} {P : σ → Prop}

def Run.NoExit (run : Run σ τ) : Prop :=
  ∀ failure, run.outcome = some (.error failure) → failure.exits = false

private theorem stopAt_noExit {fault : StreamFault} (h : fault ≠ .exit) (stream : σ) (a : τ) :
    (stopAt fault stream a).NoExit := by
  intro failure hfailure
  cases fault <;> simp [stopAt] at hfailure h ⊢ <;> subst hfailure <;> rfl

private theorem sendReply_noExit (hb : io.Bounds P (· ≠ .exit)) (reply : Transmission) (stream : σ)
    (a : τ)
    (next : σ → Run σ τ) (hnext : ∀ stream, P stream → (next stream).NoExit) (h : P stream) :
    (sendReply io reply stream a next).NoExit := by
  obtain ⟨hsent, hfault⟩ := sendAll_bounds hb reply.pieces stream h
  simp only [sendReply, Run.NoExit, Run.after]
  split
  · rename_i fault _ hsend
    exact stopAt_noExit (hfault _ hsend) _ _
  · rintro _ ⟨⟩
    rfl
  · split
    · exact hnext _ hsent
    · rintro _ ⟨⟩

private theorem serve_noExit (hb : io.Bounds P (· ≠ .exit)) (happ : app.NeverExits) (limit : Int)
    (steps : Nat) (p : Progress) (i : Inbox) (stream : σ) (a : τ) (h : P stream) :
    (serve app limit io steps p i stream a).NoExit := by
  induction steps generalizing p i stream a with
  | zero => rintro _ ⟨⟩
  | succ steps ih =>
    simp only [serve]
    split
    · have hreceived := hb.receive receiveSize stream h
      have hfault := fun fault => hb.receiveFault receiveSize stream fault h
      split <;> rename_i hreceive <;> rw [hreceive] at hreceived hfault
      · exact ih _ _ _ _ hreceived
      · exact ih _ _ _ _ hreceived
      · exact stopAt_noExit (hfault _ rfl) _ _
    · rintro _ ⟨⟩
    · refine sendReply_noExit hb _ _ _ (fun t => ⟨[], some (.ok ()), t, a⟩) (fun t _ => ?_) h
      rintro _ ⟨⟩
    · rename_i head body j _
      have hexits := happ (head.request body) a
      split <;> rename_i hanswer
      · exact sendReply_noExit hb _ _ _ _ (fun _ hs => ih _ _ _ _ hs) h
      · rintro _ ⟨⟩
        rfl
      · rename_i name
        rw [if_neg (by simp [hexits name hanswer])]
        exact sendReply_noExit hb _ _ _ _ (fun _ hs => ih _ _ _ _ hs) h

end exits

end Http

namespace Server

open Log Policy Tls

/-- A handler leaves its streams open, and it makes the process exit only if the transport does. -/
structure Handler.IsOrdinary (handler : Handler ε τ) : Prop where
  leavesOpen : ∀ facts? (channel : Channel ε) state,
    (handler.handle facts? channel state).stream.transport.closes = channel.transport.closes
  noExit : ∀ facts? (channel : Channel ε) state failure,
    channel.transport.OnlyFaults (· ≠ .exit) →
      (handler.handle facts? channel state).outcome = .error failure → failure.exits = false

private theorem isFound_ne_exit (fault : StreamFault) (h : fault.isFound) : fault ≠ .exit := by
  rintro rfl
  cases h

/-- Serving HTTP leaves the stream open; it makes the process exit only if the transport does. -/
theorem httpHandler_isOrdinary {app : Http.Application τ} (happ : app.NeverExits) (io : Engine ε)
    (limit : Int) (steps : Channel ε → Nat) : (httpHandler io app limit steps).IsOrdinary := by
  refine ⟨?_, ?_⟩
  · intro facts? channel state
    have hbounds := Channel.bounds (Script.bounds_closes channel.transport.closes)
      (fun _ _ => trivial) io
    exact Http.serve_keeps hbounds.toKeeps app limit _ _ _ _ _ rfl
  · intro facts? channel state failure honly houtcome
    have hbounds := Channel.bounds (Script.bounds_onlyFaults (Q := (· ≠ .exit)) (by simp))
      isFound_ne_exit io
    refine Http.serve_noExit hbounds happ limit (steps channel) .head {} channel state honly _ ?_
    simp only [httpHandler] at houtcome
    cases hrun : (Http.serve app limit (Channel.stream io) (steps channel) .head {} channel
        state).outcome with
    | none => simp [hrun] at houtcome
    | some outcome =>
      rw [hrun, Option.getD_some] at houtcome
      rw [houtcome]

/-! ## Connections and what was asked for them -/

structure Asked where
  records : List Record
  result : Except ContextError Context

/-- A connection, and what came of asking for a context for it if it has to be secured. -/
structure Connection where
  arrival : Arrival
  asked? : Option Asked

/-- What is logged on account of a connection before its handshake. -/
def Connection.logged (c : Connection) : List Record := c.asked?.elim [] Asked.records

def Connection.pass (stack : Stack ε) (c : Connection) : Except (Refusal × Script) (Channel ε) :=
  match c.asked? with
  | none => .ok (.clear c.arrival.transport)
  | some asked =>
    match asked.result with
    | .error e => .error (.context e, c.arrival.transport)
    | .ok context =>
      match stack.wrap context c.arrival.offer c.arrival.transport with
      | (some fault, channel) => .error (.handshake fault, channel.transport)
      | (none, channel) => .ok channel

def Gate.asked? [Yaml.Room] [Pki.KeyLibrary] (protocols? : Option (List String))
    (fs : FileSystem) : Gate → Option Asked
  | clear => none
  | secured source =>
    some ⟨(source.policy fs).1,
      match (source.policy fs).2 with
      | .error e => .error (.load e)
      | .ok policy => policy.context (.at fs) protocols?⟩

private theorem Gate.pass_eq [Yaml.Room] [Pki.KeyLibrary] (stack : Stack ε)
    (protocols? : Option (List String)) (fs : FileSystem) (a : Arrival) (gate : Gate) :
    gate.pass stack protocols? fs a =
      ⟨(Connection.mk a (gate.asked? protocols? fs)).logged,
        (Connection.mk a (gate.asked? protocols? fs)).pass stack⟩ := by
  cases gate with
  | clear => rfl
  | secured source =>
    simp only [Gate.pass, Gate.asked?, Connection.logged, Connection.pass, Option.elim]
    rcases source.policy fs with ⟨records, e | policy⟩
    · rfl
    · cases hcontext : policy.context (.at fs) protocols? with
      | error e => simp only [hcontext]
      | ok context =>
        simp only [hcontext]
        rcases stack.wrap context a.offer a.transport with ⟨_ | fault, channel⟩ <;> rfl

private theorem Gate.logged_source [Yaml.Room] [Pki.KeyLibrary] (protocols? : Option (List String))
    (fs : FileSystem) (a : Arrival) (gate : Gate) :
    ∀ r ∈ (Connection.mk a (gate.asked? protocols? fs)).logged, r.source ≠ .networking := by
  intro r hr
  cases gate with
  | clear => simp [Connection.logged, Gate.asked?] at hr
  | secured source =>
    simp only [Connection.logged, Gate.asked?, Option.elim] at hr
    cases source with
    | fixed policy => simp [PolicySource.policy] at hr
    | built options =>
      obtain h | h := (SecurityPolicy.build_cautions fs options r hr).2 <;> simp [h]
    | loaded path => obtain h | h := SecurityPolicy.load_source _ _ r hr <;> simp [h]

def treat (stack : Stack ε) (handler : Handler ε τ) (passed : Nat) (state : τ) (c : Connection) :
    Visit ε τ :=
  match c.pass stack with
  | .error (refusal, transport) =>
    ⟨c.logged ++ if refusal.exits then [] else [refusal.record c.arrival.remote?], none,
      .clear transport.close, .error (.inl refusal), passed, state⟩
  | .ok channel =>
    let visit := handle stack handler (passed + 1) c.arrival.remote? channel state
    { visit with records := c.logged ++ visit.records }

/-- Treats connections in order up to the first that makes the process exit. -/
def attend (stack : Stack ε) (handler : Handler ε τ) :
    List Connection → Nat → τ → List (Visit ε τ)
  | [], _, _ => []
  | c :: rest, passed, state =>
    let visit := treat stack handler passed state c
    if visit.exits then [visit]
    else visit :: attend stack handler rest visit.passed visit.state

/-- The connections of a running server, each with what was asked for on the files of its moment. -/
def connectionsOf [Yaml.Room] [Pki.KeyLibrary] (protocols? : Option (List String)) (gate : Gate) :
    FileSystem → List Step → List Connection
  | _, [] => []
  | fs, .arrival a :: rest =>
    ⟨a, gate.asked? protocols? fs⟩ :: connectionsOf protocols? gate fs rest
  | fs, .edit e :: rest => connectionsOf protocols? gate (e.apply fs) rest
  | fs, .setPolicy _ :: rest => connectionsOf protocols? gate fs rest

private theorem connectionsOf_logged [Yaml.Room] [Pki.KeyLibrary]
    (protocols? : Option (List String))
    (gate : Gate) (fs : FileSystem)
    (steps : List Step) :
    ∀ c ∈ connectionsOf protocols? gate fs steps, ∀ r ∈ c.logged, r.source ≠ .networking := by
  fun_induction connectionsOf protocols? gate fs steps with
  | case1 => simp
  | case2 fs a rest ih =>
    rintro c (_ | ⟨_, hc⟩)
    · exact gate.logged_source protocols? fs a
    · exact ih c hc
  | case3 fs e rest ih => exact ih
  | case4 fs options rest ih => exact ih

section Attending

variable [Yaml.Room] [Pki.KeyLibrary] (stack : Stack ε) (handler : Handler ε τ)
  (protocols? : Option (List String)) (gate : Gate)

private theorem receive_eq_treat (fs : FileSystem) (passed : Nat) (state : τ) (a : Arrival) :
    receive stack handler protocols? gate fs passed state a =
      treat stack handler passed state ⟨a, gate.asked? protocols? fs⟩ := by
  cases hpass : (Connection.mk a (gate.asked? protocols? fs)).pass stack <;>
    simp only [receive, treat, Gate.pass_eq, hpass]

private theorem connectionsOf_eq (fs : FileSystem) (steps : List Step) :
    connectionsOf protocols? gate fs steps =
      (arrivals fs steps).map fun x => ⟨x.2, gate.asked? protocols? x.1⟩ := by
  fun_induction connectionsOf protocols? gate fs steps with
  | case1 => rfl
  | case2 fs a rest ih => rw [arrivals, List.map_cons, ih]
  | case3 fs e rest ih => exact ih
  | case4 fs options rest ih => exact ih

private theorem receiveAll_eq_attend (l : List (FileSystem × Arrival)) (passed : Nat) (state : τ) :
    receiveAll stack handler protocols? gate l passed state =
      attend stack handler (l.map fun x => ⟨x.2, gate.asked? protocols? x.1⟩) passed state := by
  induction l generalizing passed state with
  | nil => rfl
  | cons x l ih => simp only [receiveAll, List.map_cons, attend, receive_eq_treat, ih]

private theorem run_attends (steps : List Step) (w : World τ) :
    (run stack handler protocols? gate steps w).1.filterMap (·.visit?) =
      attend stack handler (connectionsOf protocols? gate w.fs steps) w.passed w.state := by
  rw [run_visits, receiveAll_eq_attend, connectionsOf_eq]

end Attending

/-! ## Rejected and served -/

/-- A connection that had to be secured is rejected: the handler is not called, no number is used
up, and one record speaks of it, a warning exactly if the configuration is the cause. -/
structure Visit.IsRejected (stack : Stack ε) (c : Connection) (passed : Nat) (state : τ)
    (v : Visit ε τ) : Prop where
  secured : c.asked?.isSome
  refused : ∃ refusal transport, c.pass stack = .error (refusal, transport) ∧
    v.outcome = .error (.inl refusal) ∧
    ∃ record, v.records = c.logged ++ [record] ∧ record.source = .networking ∧
      (record.level = .warning ↔ ∃ e, refusal = .context (.config e)) ∧
      (record.level = .info ↔ ¬ ∃ e, refusal = .context (.config e))
  given : v.given? = none
  passed : v.passed = passed
  state : v.state = state

def acceptedRecord (number : Nat) (remote? : Option Remote) : Record :=
  connectionRecord number .info ("accepted from " ++ Remote.shown remote? ++ ".") none

def endRecords (number : Nat) (outcome : Except Failure Unit) : List Record :=
  match outcome with
  | .ok _ => [connectionRecord number .info "closed." none]
  | .error failure =>
    [connectionRecord number .error "handler thrown an unhandled exception:" (some failure),
      connectionRecord number .info "closed." none]

/-- A connection is served: it takes the next number, the handler is called with its stream, and the
records of its acceptance and its end carry the number, with an error between them exactly if the
handler has failed. -/
structure Visit.IsServed (stack : Stack ε) (handler : Handler ε τ) (c : Connection) (passed : Nat)
    (state : τ) (v : Visit ε τ) : Prop where
  handled : ∃ channel, c.pass stack = .ok channel ∧ v.given? = some channel ∧
    let handled := handler.handle (channel.facts? stack) channel state
    v.outcome = handled.outcome.mapError .inr ∧ v.state = handled.state ∧
      v.records = c.logged ++ acceptedRecord (passed + 1) c.arrival.remote? ::
        (handled.records ++ endRecords (passed + 1) handled.outcome)
  passed : v.passed = passed + 1

/-- Each of the connections has a visit; it is rejected or served but not both, its transport is
closed once more, and the next connection finds what it has left. -/
inductive Disposal (stack : Stack ε) (handler : Handler ε τ) :
    List Connection → Nat → τ → List (Visit ε τ) → Prop
  | done (passed : Nat) (state : τ) : Disposal stack handler [] passed state []
  | next {c : Connection} {rest : List Connection} {passed : Nat} {state : τ} {v : Visit ε τ}
      {others : List (Visit ε τ)}
      (one : Xor (v.IsRejected stack c passed state) (v.IsServed stack handler c passed state))
      (closed : v.final.transport.closes = c.arrival.transport.closes + 1)
      (later : Disposal stack handler rest v.passed v.state others) :
      Disposal stack handler (c :: rest) passed state (v :: others)

section Classes

variable {stack : Stack ε} {handler : Handler ε τ} {c : Connection} {passed : Nat} {state : τ}

private theorem Refusal.record_source (remote? : Option Remote) (refusal : Refusal) :
    (refusal.record remote?).source = .networking := by
  unfold record
  split
  · split <;> rfl
  · rfl

private theorem Refusal.record_level (remote? : Option Remote) (refusal : Refusal) :
    ((refusal.record remote?).level = .warning ↔ ∃ e, refusal = .context (.config e)) ∧
      ((refusal.record remote?).level = .info ↔ ¬ ∃ e, refusal = .context (.config e)) := by
  cases refusal with
  | handshake fault => simp [record, record.failed]
  | context e =>
    cases e with
    | load e => cases e <;> simp [record, record.failed, ContextError.config?, ContextError.config]
    | _ => simp [record, record.failed, ContextError.config?, ContextError.config]

private theorem Visit.IsRejected.not_isServed {v : Visit ε τ}
    (h : v.IsRejected stack c passed state) :
    ¬ v.IsServed stack handler c passed state := by
  intro hserved
  obtain ⟨channel, -, hgiven, -⟩ := hserved.handled
  simp [h.given] at hgiven

variable (stack) in
private theorem Connection.pass_bounds (h : c.arrival.transport.OnlyFaults (· ≠ .exit)) :
    (∀ refusal transport, c.pass stack = .error (refusal, transport) →
      refusal.exits = false ∧ transport.closes = c.arrival.transport.closes) ∧
    (∀ channel, c.pass stack = .ok channel →
      channel.transport.OnlyFaults (· ≠ .exit) ∧
        channel.transport.closes = c.arrival.transport.closes) := by
  have hfaults := Stack.wrap_bounds (Script.bounds_onlyFaults (Q := (· ≠ .exit)) (by simp))
    isFound_ne_exit stack
  have hcloses := Stack.wrap_bounds (Script.bounds_closes c.arrival.transport.closes)
    (fun _ _ => trivial) stack
  unfold pass
  split
  · exact ⟨by simp, by simp +contextual [Channel.transport, h]⟩
  · split
    · refine ⟨?_, by simp⟩
      rintro _ _ ⟨⟩
      exact ⟨rfl, rfl⟩
    · rename_i context _
      obtain ⟨honly, hfault⟩ := hfaults context c.arrival.offer h
      obtain ⟨hclosed, -⟩ := hcloses context c.arrival.offer rfl
      split <;> rename_i hwrap <;> rw [hwrap] at honly hfault hclosed
      · refine ⟨?_, by simp⟩
        rintro _ _ ⟨⟩
        refine ⟨?_, hclosed⟩
        -- a handshake makes the process exit only with a fault of that kind
        have hne := hfault _ rfl
        simp only [Refusal.exits]
        split <;> simp_all
      · refine ⟨by simp, ?_⟩
        rintro _ ⟨⟩
        exact ⟨honly, hclosed⟩

variable (stack) in
private theorem treat_disposes (hhandler : handler.IsOrdinary)
    (h : c.arrival.transport.OnlyFaults (· ≠ .exit)) (passed : Nat) (state : τ) :
    (treat stack handler passed state c).exits = false ∧
      Xor ((treat stack handler passed state c).IsRejected stack c passed state)
        ((treat stack handler passed state c).IsServed stack handler c passed state) ∧
      (treat stack handler passed state c).final.transport.closes =
        c.arrival.transport.closes + 1 := by
  obtain ⟨hrefused, hpassed⟩ := Connection.pass_bounds stack h
  cases hpass : c.pass stack with
  | error refused =>
    obtain ⟨refusal, transport⟩ := refused
    obtain ⟨hexits, hcloses⟩ := hrefused refusal transport hpass
    -- a connection for which nothing is asked passes
    have hsecured : c.asked?.isSome := by
      cases hasked : c.asked? with
      | none => simp [Connection.pass, hasked] at hpass
      | some asked => rfl
    have hrejected : (treat stack handler passed state c).IsRejected stack c passed state := by
      simp only [treat, hpass, hexits]
      exact ⟨hsecured, ⟨refusal, transport, hpass, rfl, _, rfl, refusal.record_source _,
        refusal.record_level _⟩, rfl, rfl, rfl⟩
    refine ⟨by simp [treat, hpass, Visit.exits, hexits], .inl ⟨hrejected, hrejected.not_isServed⟩,
      ?_⟩
    simp only [treat, hpass, Channel.transport, Script.close, hcloses]
  | ok channel =>
    obtain ⟨honly, hcloses⟩ := hpassed channel hpass
    -- the handler is given an open stream and leaves it open, so that it is closed once
    have hnoExit := hhandler.noExit (channel.facts? stack) channel state
    have hserved : (treat stack handler passed state c).IsServed stack handler c passed state ∧
        (treat stack handler passed state c).exits = false := by
      simp only [treat, hpass, handle]
      split <;> rename_i houtcome
      · refine ⟨⟨⟨channel, hpass, rfl, ?_⟩, rfl⟩, rfl⟩
        simp only [houtcome, endRecords, acceptedRecord]
        exact ⟨rfl, trivial, trivial⟩
      · rename_i failure
        have hstays := hnoExit failure honly houtcome
        simp only [hstays, Bool.false_eq_true, if_false]
        refine ⟨⟨⟨channel, hpass, rfl, ?_⟩, rfl⟩, hstays⟩
        simp only [houtcome, endRecords, acceptedRecord]
        exact ⟨rfl, trivial, trivial⟩
    refine ⟨hserved.2, .inr ⟨hserved.1, fun hrejected => hrejected.not_isServed hserved.1⟩, ?_⟩
    simp only [treat, hpass, handle_final, Channel.close_closes, hhandler.leavesOpen, hcloses]

private theorem attend_disposes (hhandler : handler.IsOrdinary) {connections : List Connection}
    (h : ∀ c ∈ connections, c.arrival.transport.OnlyFaults (· ≠ .exit)) (passed : Nat)
    (state : τ) :
    Disposal stack handler connections passed state
      (attend stack handler connections passed state) := by
  induction connections generalizing passed state with
  | nil => exact .done passed state
  | cons c rest ih =>
    obtain ⟨hstays, hone, hclosed⟩ :=
      treat_disposes stack hhandler (h c List.mem_cons_self) passed state
    simp only [attend, hstays, Bool.false_eq_true, if_false]
    exact .next hone hclosed (ih (fun c hc => h c (List.mem_cons_of_mem _ hc)) _ _)

variable {connections : List Connection} {visits : List (Visit ε τ)}

theorem Disposal.length_eq (h : Disposal stack handler connections passed state visits) :
    visits.length = connections.length := by
  induction h with
  | done => rfl
  | next _ _ _ ih => simp only [List.length_cons, ih]

theorem Disposal.numbers (h : Disposal stack handler connections passed state visits) :
    (visits.filter (·.given?.isSome)).map (·.passed) =
      List.range' (passed + 1) (visits.countP (·.given?.isSome)) := by
  induction h with
  | done => rfl
  | next hone _ _ ih =>
    -- a connection that is rejected uses up no number
    obtain ⟨hrejected, -⟩ | ⟨hserved, -⟩ := hone
    · rw [List.filter_cons_of_neg (by simp [hrejected.given]),
        List.countP_cons_of_neg (by simp [hrejected.given]), ih, hrejected.passed]
    · obtain ⟨channel, -, hgiven, -⟩ := hserved.handled
      rw [List.filter_cons_of_pos (by simp [hgiven]), List.countP_cons_of_pos (by simp [hgiven]),
        List.map_cons, ih, hserved.passed, List.range'_succ]

end Classes

/-- Connections are disposed of one by one. Whatever came of asking for a context for each of them,
of its handshake, and of its handler, as long as neither the transports nor the handler make the
process exit and the handler leaves its streams open: every connection has its visit; each one is
either rejected or served, and its transport is closed once; and those that are served have
consecutive numbers. A running server disposes of its connections so, and what is logged before
their handshakes is not said in the name of the part that rejects them. -/
theorem disposed_once (stack : Stack ε) (handler : Handler ε τ) (hhandler : handler.IsOrdinary)
    (connections : List Connection)
    (hconnections : ∀ c ∈ connections, c.arrival.transport.OnlyFaults (· ≠ .exit)) (passed : Nat)
    (state : τ) :
    let visits := attend stack handler connections passed state
    Disposal stack handler connections passed state visits ∧
      visits.length = connections.length ∧
      (visits.filter (·.given?.isSome)).map (·.passed) =
        List.range' (passed + 1) (visits.countP (·.given?.isSome)) ∧
      ∀ [Yaml.Room] [Pki.KeyLibrary] (protocols? : Option (List String)) (gate : Gate)
        (fs : FileSystem) (settings : Settings) (steps : List Step),
        connections = connectionsOf protocols? gate fs steps →
        (run stack handler protocols? gate steps ⟨fs, settings, passed, state⟩).1.filterMap
            (·.visit?) = visits ∧
          ∀ c ∈ connections, ∀ r ∈ c.logged, r.source ≠ .networking := by
  intro visits
  have hdisposed : Disposal stack handler connections passed state visits :=
    attend_disposes hhandler hconnections passed state
  refine ⟨hdisposed, hdisposed.length_eq, hdisposed.numbers, ?_⟩
  rintro _ _ protocols? gate fs settings steps rfl
  exact ⟨run_attends stack handler protocols? gate steps ⟨fs, settings, passed, state⟩,
    connectionsOf_logged protocols? gate fs steps⟩

/-! ### Four connections -/

def waitingStack : Stack Bool where
  engine :=
    { handshake := fun arrived =>
        { attempt := if arrived then .done () else .wantRead, next := arrived }
      receive := fun _ arrived => { attempt := .wantRead, next := arrived }
      send := fun data arrived => { attempt := .done data.length, emitted := data, next := arrived }
      feed := fun _ _ => true
      finish := id }
  start := fun _ _ => false
  facts := fun _ => ⟨.v13, none, none⟩

def failingHandler : Handler Bool Nat where
  handle _ channel served :=
    ⟨[], if served = 0 then .ok () else .error (.raised "ValueError"), channel, served + 1⟩

private theorem failingHandler_isOrdinary : failingHandler.IsOrdinary := by
  refine ⟨fun _ _ _ => rfl, fun _ channel served failure _ houtcome => ?_⟩
  simp only [failingHandler] at houtcome
  split at houtcome
  · cases houtcome
  · cases houtcome
    decide

/-- A connection that completes its handshake, one for which the configuration is not valid, one
that ends before its handshake does, and one that is not secured. -/
def variousConnections : List Connection :=
  let asked : Asked := ⟨[], .ok (.verifying { verify := .never, roots := .nothing })⟩
  [⟨{ transport := { items := [.data [22]] } }, some asked⟩,
    ⟨{ transport := {} }, some ⟨[], .error (.config (.keyMissing "cert.pem"))⟩⟩,
    ⟨{ transport := {} }, some asked⟩,
    ⟨{ transport := {} }, none⟩]

/-- The first and the last connection are served and the two others are not, and each transport is
closed once. -/
theorem disposed_once_various :
    failingHandler.IsOrdinary ∧
    (∀ c ∈ variousConnections, c.arrival.transport.OnlyFaults (· ≠ .exit)) ∧
    (attend waitingStack failingHandler variousConnections 0 0).map (fun v =>
        (v.given?.isSome, v.passed, v.final.transport.closes, v.records.map (·.level))) =
      [(true, 1, 1, [.info, .info]), (false, 1, 1, [.warning]), (false, 1, 1, [.info]),
        (true, 2, 1, [.info, .error, .info])] ∧
    Disposal waitingStack failingHandler variousConnections 0 0
      (attend waitingStack failingHandler variousConnections 0 0) := by
  have hconnections : ∀ c ∈ variousConnections, c.arrival.transport.OnlyFaults (· ≠ .exit) := by
    intro c hc
    simp only [variousConnections, List.mem_cons, List.not_mem_nil, or_false] at hc
    obtain rfl | rfl | rfl | rfl := hc <;> exact ⟨by simp, by simp⟩
  exact ⟨failingHandler_isOrdinary, hconnections, by decide +kernel,
    (disposed_once waitingStack failingHandler failingHandler_isOrdinary variousConnections
      hconnections 0 0).1⟩

end Server

end TlsGate
