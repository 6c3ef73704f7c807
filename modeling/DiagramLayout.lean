import DiagramLayout.Main
import DiagramLayout.Proofs.Caption.Account
import DiagramLayout.Proofs.Caption.Clear
import DiagramLayout.Proofs.Plane.Selection
import DiagramLayout.Proofs.Report.Labels
import DiagramLayout.Proofs.Route.Cheapest
import DiagramLayout.Proofs.Route.Checked
import DiagramLayout.Proofs.Route.Clearance
import DiagramLayout.Proofs.Route.Obstacles
import DiagramLayout.Proofs.Route.Raster
import DiagramLayout.Proofs.Route.Repeats
import DiagramLayout.Proofs.Route.Simulation
import DiagramLayout.Proofs.Scene.Attached
import DiagramLayout.Proofs.Scene.Beginning
import DiagramLayout.Proofs.Scene.Class.Compartments
import DiagramLayout.Proofs.Scene.Class.Known
import DiagramLayout.Proofs.Scene.Class.Ranks
import DiagramLayout.Proofs.Scene.Class.Unrooted
import DiagramLayout.Proofs.Scene.Nesting
import DiagramLayout.Proofs.Scene.Spread
import DiagramLayout.Proofs.Scene.Straight
import DiagramLayout.Proofs.Scene.Tidy
import DiagramLayout.Proofs.Script.Activation
import DiagramLayout.Proofs.Script.ClassBlock
import DiagramLayout.Proofs.Script.Complaints
import DiagramLayout.Proofs.Script.Continuation
import DiagramLayout.Proofs.Script.Detection
import DiagramLayout.Proofs.Script.Excerpt
import DiagramLayout.Proofs.Script.Gaps
import DiagramLayout.Proofs.Script.Meaning
import DiagramLayout.Proofs.Script.Normal
import DiagramLayout.Proofs.Settings.Kept
import DiagramLayout.Route.Scan
