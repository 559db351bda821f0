import TlsGate.Main
import TlsGate.Proofs.Http.Delivery
import TlsGate.Proofs.Policy.Admission
import TlsGate.Proofs.Tls.ClientAdmission
import TlsGate.Proofs.Server.Overlap
import TlsGate.Server.Probe
import TlsGate.Tls.Client
import TlsGate.Proofs.Server.Disposal
import TlsGate.Proofs.Server.Freshness
import TlsGate.Proofs.Http.Plain
import TlsGate.Proofs.Http.Lifecycle
import TlsGate.Proofs.Http.Conversation
import TlsGate.Proofs.Http.Robustness
import TlsGate.Proofs.Policy.Loading
import TlsGate.Proofs.Server.Startup
import TlsGate.Proofs.Http.HeadOnly
import TlsGate.Proofs.Http.Termination
import TlsGate.Proofs.Http.Interruption
import TlsGate.Proofs.Tls.Conservation
import TlsGate.Proofs.Tls.Strength
import TlsGate.Proofs.Http.BodyLimit
import TlsGate.Proofs.Http.RoundTrip
import TlsGate.Proofs.Server.Transparency
import TlsGate.Proofs.Tls.EndOfStream
import TlsGate.Proofs.Server.LostClient
import TlsGate.Proofs.Policy.Building
import TlsGate.Proofs.Pki.Damage
import TlsGate.Proofs.Server.Refusals
import TlsGate.Proofs.Server.StaticPolicy
import TlsGate.Proofs.Tls.Protocols
import TlsGate.Proofs.Address.Printed
