import TlsGate.Proofs.Tls.ClientAdmission

/-!
What becomes of the clients of a policy when its mode is raised. The order of the modes is one of
strength for every client that presents a certificate, whatever it is checked against. For clients
without one there is a single pair of modes that stand in the wrong order: the third mode demands a
certificate, and the fourth, which only verifies those that are presented, does not.
-/

set_option autoImplicit false
set_option relaxedAutoImplicit false

namespace TlsGate

namespace Policy

open Config Pki Tls

section Modes

variable {m n : ClientAuth}

end Modes

section Demands

variable {here : Surroundings} {p : SecurityPolicy} {m n : ClientAuth}

end Demands

section Contexts

variable [KeyLibrary] {at' : Moments} {protocols? : Option (List String)} {p : SecurityPolicy}
  {m n : ClientAuth}

end Contexts

end Policy

namespace Tls

open Config Pki Policy

local instance strengthKeys : KeyLibrary := .standard

end Tls

end TlsGate
