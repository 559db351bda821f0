import TlsGate.Http.Handler
import TlsGate.Tls.Stack

/-!
Handlers: what a server does with a connection that it has accepted. A handler is given a stream and
does not close it; what it learns from one connection to the next is its state.
-/

set_option autoImplicit false
set_option relaxedAutoImplicit false

namespace TlsGate.Server

open Log Tls

structure Handled (σ τ : Type) where
  records : List Record
  outcome : Except Failure Unit
  stream : σ
  state : τ

/-- A handler with states in `τ`, for connections that engines in `ε` may secure. -/
structure Handler (ε τ : Type) where
  handle : Option Facts → Channel ε → τ → Handled (Channel ε) τ

/-- The handler that serves HTTP. A connection takes at most as many steps as `steps` says. -/
def httpHandler {ε τ : Type} (io : Engine ε) (app : Http.Application τ) (bodyLimit : Int)
    (steps : Channel ε → Nat) : Handler ε τ where
  handle _ channel state :=
    let run := Http.serve app bodyLimit (Channel.stream io) (steps channel) .head {} channel state
    ⟨run.records, run.outcome.getD (.ok ()), run.stream, run.application⟩

end TlsGate.Server
