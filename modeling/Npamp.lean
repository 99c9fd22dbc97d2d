import Npamp.Proof.Opaque
import Npamp.Proof.StreamCarriage
import Npamp.Proof.Outstanding
import Npamp.Proof.Agreement
import Npamp.Proof.KeyCache
import Npamp.Proof.Control
import Npamp.Proof.Inert
import Npamp.Proof.Authentication
import Npamp.Proof.PortCbor
import Npamp.Proof.RustBridge
import Npamp.Proof.Tunnel
import Npamp.Proof.TunnelExit
import Npamp.Proof.Correlation
import Npamp.Proof.Truncation
import Npamp.Proof.Counter
import Npamp.Proof.Agent
import Npamp.Proof.Waypoint
import Npamp.Proof.Sender
import Npamp.Proof.KeyFormat
import Npamp.Proof.Stdio
import Npamp.Proof.HttpCarriage
import Npamp.Proof.Ingress
import Npamp.Proof.Legs
import Npamp.Proof.BodyLaws
import Npamp.Proof.Delivery
import Npamp.Proof.CborAccess
import Npamp.Proof.SpiffeId
import Npamp.Proof.PubkeyHex
import Npamp.Proof.Gnap
import Npamp.Proof.Dsse
import Npamp.Proof.WfpWire
