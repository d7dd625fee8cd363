import Synod.Cluster.Direct
import Synod.Cluster.Status
import Synod.Console.Session
import Synod.Main
import Synod.Proofs.Quiescence
import Synod.Ticker
import Synod.Wire.Message
import Synod.Wire.Setup
import Synod.Proofs.Visit
import Synod.Proofs.Routing
import Synod.Proofs.Rounds
import Synod.Proofs.Settling
import Synod.Proofs.Provenance
import Synod.Proofs.Uniqueness
import Synod.Proofs.Certificates
import Synod.Proofs.Majority
import Synod.Proofs.Confluence
import Synod.Proofs.Commitment
import Synod.Proofs.Counting
import Synod.Proofs.Decision
import Synod.Proofs.Calls
import Synod.Proofs.Retry
import Synod.Proofs.Canvass
import Synod.Proofs.Course
import Synod.Proofs.Fresh
import Synod.Proofs.Numbers
import Synod.Proofs.Tour
import Synod.Proofs.Containment
import Synod.Proofs.Construction
import Synod.Proofs.States
import Synod.Proofs.Commands
import Synod.Proofs.Ticking
import Synod.Proofs.Reading
import Synod.Proofs.Console
import Synod.Proofs.RoundTrip
import Synod.Proofs.Overlap
import Synod.Proofs.Recount
import Synod.Proofs.Display
import Synod.Proofs.Background
import Synod.Proofs.Arguments
import Synod.Proofs.Session
import Synod.Proofs.Arguments
import Synod.Proofs.Session
