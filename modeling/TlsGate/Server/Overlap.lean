import TlsGate.Server.Run

/-!
Connections that overlap. A connection that has been accepted gets on in stages: the files are read
for its context, the handshake is performed, the handler has it, and it is over. In between other
connections get on, others arrive, and files and settings change, even between two of the reads for
one context. A handler acts on its state when it ends.
-/

set_option autoImplicit false
set_option relaxedAutoImplicit false

namespace TlsGate.Server

open Config Log Policy Tls

/-- The files as they are at each read for a context: of the configuration, of the authorities that
it names, and of the credential. -/
structure Glances where
  config : FileSystem
  authorities : FileSystem
  own : Moments

def Glances.at (fs : FileSystem) : Glances := ⟨fs, fs, .at fs⟩

/-- The first reads have seen the files like this, and the others see them as they are now. -/
def Glances.of (seen : List FileSystem) (fs : FileSystem) : Glances where
  config := seen[0]?.getD fs
  authorities := seen[1]?.getD fs
  own :=
    { certFile := seen[2]?.getD fs
      keyFile := seen[3]?.getD fs
      engineCertFile := seen[4]?.getD fs
      engineKeyFile := seen[5]?.getD fs }

def PolicySource.policyAt [Yaml.Room] (g : Glances) :
    PolicySource → List Record × Except LoadError SecurityPolicy
  | fixed policy => ([], .ok policy)
  | built options => SecurityPolicy.build g.authorities options
  | loaded path => SecurityPolicy.loadAt g.config g.authorities path

section Connections

variable [Yaml.Room] [Pki.KeyLibrary]

def PolicySource.contextAt (g : Glances) (protocols? : Option (List String))
    (source : PolicySource) : List Record × Except ContextError Context :=
  match source.policyAt g with
  | (records, .error e) => (records, .error (.load e))
  | (records, .ok policy) => (records, policy.context g.own protocols?)

/-- How far a connection is. -/
inductive Stage (ε τ : Type) where
  /-- So many of the reads for its context are done, and have seen the files like this. -/
  | asking (source : PolicySource) (seen : List FileSystem)
  | greeting (context : Context)
  | given (number : Nat) (channel : Channel ε)
  | ended (visit : Visit ε τ)

structure Job (ε τ : Type) where
  arrival : Arrival
  /-- What has been logged of it before the handler had it. -/
  records : List Record := []
  stage : Stage ε τ

/-- A server with all the connections that it has accepted. -/
structure Site (ε τ : Type) where
  world : World τ
  jobs : List (Job ε τ) := []

/-- What happens to a server whose connections overlap. -/
inductive Event where
  | arrival (a : Arrival)
  | look (k : Nat)
  | advance (k : Nat)
  | edit (e : FileEdit)
  | setPolicy (options : TlsConfig)
  deriving DecidableEq, Repr

section Jobs

variable {ε τ : Type}

def Job.given? (job : Job ε τ) : Option (Channel ε) :=
  match job.stage with
  | .given _ channel => some channel
  | .ended visit => visit.given?
  | _ => none

def Job.visit? (job : Job ε τ) : Option (Visit ε τ) :=
  match job.stage with
  | .ended visit => some visit
  | _ => none

def Visit.refused (records : List Record) (remote? : Option Remote) (refusal : Refusal)
    (transport : Script) (passed : Nat) (state : τ) : Visit ε τ :=
  ⟨records ++ if refusal.exits then [] else [refusal.record remote?], none, .clear transport.close,
    .error (.inl refusal), passed, state⟩

def Job.refuse (job : Job ε τ) (refusal : Refusal) (transport : Script) (w : World τ) :
    Job ε τ :=
  { job with
    stage := .ended
      (.refused job.records job.arrival.remote? refusal transport w.passed w.state) }

def World.count (w : World τ) : World τ := { w with passed := w.passed + 1 }

def Job.accept (gate : Gate) (a : Arrival) (w : World τ) : Job ε τ × World τ :=
  match gate with
  | .clear => ({ arrival := a, stage := .given (w.passed + 1) (.clear a.transport) }, w.count)
  | .secured source => ({ arrival := a, stage := .asking source [] }, w)

def Job.look (fs : FileSystem) (job : Job ε τ) : Job ε τ :=
  match job.stage with
  | .asking source seen => { job with stage := .asking source (seen ++ [fs]) }
  | _ => job

def Job.advance (stack : Stack ε) (handler : Handler ε τ) (protocols? : Option (List String))
    (job : Job ε τ) (w : World τ) : Job ε τ × World τ :=
  match job.stage with
  | .asking source seen =>
    match source.contextAt (.of seen w.fs) protocols? with
    | (records, .error e) =>
      ({ job with records := records }.refuse (.context e) job.arrival.transport w, w)
    | (records, .ok context) => ({ job with records := records, stage := .greeting context }, w)
  | .greeting context =>
    match stack.wrap context job.arrival.offer job.arrival.transport with
    | (some fault, channel) => (job.refuse (.handshake fault) channel.transport w, w)
    | (none, channel) => ({ job with stage := .given (w.passed + 1) channel }, w.count)
  | .given number channel =>
    let visit := handle stack handler number job.arrival.remote? channel w.state
    ({ job with stage := .ended { visit with records := job.records ++ visit.records } },
      { w with state := visit.state })
  | .ended _ => (job, w)

def Site.exits (s : Site ε τ) : Bool := s.jobs.any fun job => job.visit?.any Visit.exits

/-- What comes of an event; nothing if the process has exited. -/
def Site.next (stack : Stack ε) (handler : Handler ε τ) (protocols? : Option (List String))
    (gate : Gate) (s : Site ε τ) (e : Event) : Site ε τ :=
  if s.exits then s
  else
    match e with
    | .arrival a =>
      let (job, w) := Job.accept gate a s.world
      ⟨w, s.jobs ++ [job]⟩
    | .look k => { s with jobs := s.jobs.modify k (Job.look s.world.fs) }
    | .advance k =>
      match s.jobs[k]? with
      | none => s
      | some job =>
        let (job, w) := job.advance stack handler protocols? s.world
        ⟨w, s.jobs.set k job⟩
    | .edit e => { s with world := { s.world with fs := e.apply s.world.fs } }
    | .setPolicy options =>
      { s with world := (step stack handler protocols? gate s.world (.setPolicy options)).2 }

def Site.of (stack : Stack ε) (handler : Handler ε τ) (network : Network) (fs : FileSystem)
    (settings : Settings) (mode : Mode) (state : τ) (events : List Event) : Site ε τ :=
  let begun := Server.start network fs settings mode
  let s : Site ε τ := { world := ⟨fs, begun.settings, 0, state⟩ }
  match begun.result with
  | .error _ => s
  | .ok listening =>
    events.foldl (Site.next stack handler settings.protocols? listening.gate) s

end Jobs

end Connections

end TlsGate.Server
