import TlsGate.Stream.Script
import TlsGate.Tls.Record

/-!
The wire as a client sees it: what a client does during and after its handshake, written as a script
for the transport of the server.
-/

set_option autoImplicit false
set_option relaxedAutoImplicit false

namespace TlsGate.Tls.Client

inductive Move where
  /-- It sends application data; without any it ends the stream. -/
  | write (data : Bytes)
  | spill (b : Bytes)
  | lose (fault : StreamFault)
  deriving DecidableEq, Repr

def Move.item : Move → ScriptItem
  | write data => .data (Record.ofData data)
  | spill b => .data b
  | lose fault => .fault fault

def received (most : Nat) : ScriptItem → List ScriptItem
  | .data [] => [.data []]
  | .data b => (Bytes.pieces (most - 1) b).map .data
  | .fault f => [.fault f]

/-- What the transport of the server shows of a client that makes moves: its handshake, its moves,
and a closure alert if it says farewell. -/
def items (moves : List Move) (farewell : Bool) : List ScriptItem :=
  [.data Record.hello, .data Record.finished] ++ moves.map Move.item ++
    (if farewell then [.data Record.closure] else [])

/-- Items of which a transport that receives at most `most` bytes at once gives only the first
receives. -/
def cut (most receives : Nat) (l : List ScriptItem) : List ScriptItem :=
  (l.flatMap (received most)).take receives

end TlsGate.Tls.Client
