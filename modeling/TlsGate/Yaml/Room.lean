import TlsGate.Yaml.Token

/-!
How deep the calls that read a document may nest. A reader that calls itself for the parts of what
it reads fails when its stack has no room left; how much room a call takes depends on what is ahead
of it, and how much there is on who calls the reader.
-/

set_option autoImplicit false
set_option relaxedAutoImplicit false

namespace TlsGate.Yaml

class Room where
  nodes : (depth : Nat) → (ahead : List Token) → Bool
  merges : (depth : Nat) → Bool
  marks : (depth : Nat) → Bool

@[reducible] def Room.ofCalls (calls : Nat) : Room where
  nodes depth _ := 2 * depth < calls
  merges depth := depth < calls
  marks depth := depth < calls

end TlsGate.Yaml
