import TlsGate.Server.Handler
import TlsGate.Server.Start

/-!
A running server. Connections arrive one after the other, and between them files and settings may
change. Each connection has to pass the gate; one that passes is counted and given to the handler,
and whatever becomes of it, its transport is closed once. Only an exit of the process ends the run.
-/

set_option autoImplicit false
set_option relaxedAutoImplicit false

namespace TlsGate.Server

open Config Log Policy Tls

inductive FileEdit where
  | write (path : Bytes) (node : FileNode)
  | remove (path : Bytes)
  deriving DecidableEq, Repr

def FileEdit.apply (fs : FileSystem) : FileEdit → FileSystem
  | write path node => fs.write path node
  | remove path => fs.remove path

inductive Step where
  | arrival (a : Arrival)
  | edit (e : FileEdit)
  | setPolicy (options : TlsConfig)
  deriving DecidableEq, Repr

/-- What a running server has at hand and what changes as it runs. -/
structure World (τ : Type) where
  fs : FileSystem
  settings : Settings
  /-- How many connections have passed the gate. -/
  passed : Nat := 0
  state : τ

def connectionRecord (number : Nat) (level : Level) (text : String)
    (failure : Option Failure) : Record :=
  ⟨.server, level, ("Connection #" ++ toString number ++ ": " ++ text : String), none, failure⟩

/-- What became of a connection. -/
structure Visit (ε τ : Type) where
  records : List Record
  given? : Option (Channel ε)
  /-- The stream in the end, with its transport closed. -/
  final : Channel ε
  outcome : Except (Refusal ⊕ Failure) Unit
  passed : Nat
  state : τ

def Visit.exits {ε τ : Type} (v : Visit ε τ) : Bool :=
  match v.outcome with
  | .ok _ => false
  | .error (.inl refusal) => refusal.exits
  | .error (.inr failure) => failure.exits

def handle {ε τ : Type} (stack : Stack ε) (handler : Handler ε τ) (number : Nat)
    (remote? : Option Remote) (channel : Channel ε) (state : τ) : Visit ε τ :=
  let accepted :=
    connectionRecord number .info ("accepted from " ++ Remote.shown remote? ++ ".") none
  let closed := connectionRecord number .info "closed." none
  let handled := handler.handle (channel.facts? stack) channel state
  let visit (records : List Record) (outcome : Except (Refusal ⊕ Failure) Unit) : Visit ε τ :=
    ⟨accepted :: (handled.records ++ records), some channel, handled.stream.close, outcome, number,
      handled.state⟩
  match handled.outcome with
  | .ok _ => visit [closed] (.ok ())
  | .error failure =>
    if failure.exits then visit [] (.error (.inr failure))
    else
      visit [connectionRecord number .error "handler thrown an unhandled exception:" (some failure),
        closed] (.error (.inr failure))

variable [Yaml.Room] [Pki.KeyLibrary]

def receive {ε τ : Type} (stack : Stack ε) (handler : Handler ε τ)
    (protocols? : Option (List String)) (gate : Gate) (fs : FileSystem) (passed : Nat) (state : τ)
    (a : Arrival) : Visit ε τ :=
  let passage := gate.pass stack protocols? fs a
  match passage.result with
  | .error (refusal, transport) =>
    let records := if refusal.exits then [] else [refusal.record a.remote?]
    ⟨passage.records ++ records, none, .clear transport.close, .error (.inl refusal), passed, state⟩
  | .ok channel =>
    let visit := handle stack handler (passed + 1) a.remote? channel state
    { visit with records := passage.records ++ visit.records }

structure Report (ε τ : Type) where
  records : List Record
  visit? : Option (Visit ε τ) := none

def step {ε τ : Type} (stack : Stack ε) (handler : Handler ε τ)
    (protocols? : Option (List String)) (gate : Gate) (w : World τ) :
    Step → Report ε τ × World τ
  | .arrival a =>
    let visit := receive stack handler protocols? gate w.fs w.passed w.state a
    (⟨visit.records, some visit⟩, { w with passed := visit.passed, state := visit.state })
  | .edit e => (⟨[], none⟩, { w with fs := e.apply w.fs })
  | .setPolicy options =>
    match SecurityPolicy.build w.fs options with
    | (records, .ok policy) =>
      (⟨records, none⟩, { w with settings := { w.settings with policy? := some policy } })
    | (records, .error _) => (⟨records, none⟩, w)

/-- Takes steps up to the first that makes the process exit. -/
def run {ε τ : Type} (stack : Stack ε) (handler : Handler ε τ)
    (protocols? : Option (List String)) (gate : Gate) :
    List Step → World τ → List (Report ε τ) × World τ
  | [], w => ([], w)
  | s :: rest, w =>
    let (report, w) := step stack handler protocols? gate w s
    if (report.visit?.map Visit.exits).getD false then ([report], w)
    else
      let (reports, w) := run stack handler protocols? gate rest w
      (report :: reports, w)

/-- A server from its start to its end: its start, and if it came to listen, what each step led to.
The listener is closed when the run ends. -/
structure History (ε τ : Type) where
  start : Start
  reports : List (Report ε τ)
  final : World τ

def History.of {ε τ : Type} (stack : Stack ε) (handler : Handler ε τ) (network : Network)
    (fs : FileSystem) (settings : Settings) (mode : Mode) (state : τ) (steps : List Step) :
    History ε τ :=
  let begun := Server.start network fs settings mode
  let w : World τ := ⟨fs, begun.settings, 0, state⟩
  match begun.result with
  | .error _ => ⟨begun, [], w⟩
  | .ok listening =>
    let (reports, w) := run stack handler settings.protocols? listening.gate steps w
    ⟨begun, reports, w⟩

end TlsGate.Server
