/-!
# Lanes

Parallel edges between two nodes are spread over lanes. The direction in which two nodes are first
connected has its lanes on one side, the opposite direction on the other, and each further edge in
a direction lies one step farther out.
-/

namespace DiagramLayout

/-- The lanes in one direction: how many are taken, and the sign of their side. -/
structure Lane where
  source : String
  target : String
  taken : Nat
  sign : Float32
deriving DecidableEq

/-- The lanes between all nodes, one entry for each direction that was asked for. -/
abbrev Lanes := List Lane

namespace Lanes

/-- The entry of a direction. -/
def find? (lanes : Lanes) (source target : String) : Option Lane :=
  List.find? (fun l => l.source == source && l.target == target) lanes

/-- The lanes of a direction that is asked for the first time. -/
def opened (lanes : Lanes) (source target : String) : Lane :=
  match lanes.find? target source with
  | some opposite => ⟨source, target, 0, -opposite.sign⟩
  | none => ⟨source, target, 0, 1.0⟩

/-- The lanes of a direction. -/
def direction (lanes : Lanes) (source target : String) : Lane :=
  (lanes.find? source target).getD (lanes.opened source target)

/-- The distance of the next lane in a direction from the line that connects the nodes. -/
def offset (lanes : Lanes) (source target : String) (base step : Float32) : Float32 :=
  let lane := lanes.direction source target
  lane.sign * (base + Float32.ofNat lane.taken * step)

/-- Takes the next lane in a direction. -/
def take (lanes : Lanes) (source target : String) : Lanes :=
  let lane := lanes.direction source target
  { lane with taken := lane.taken + 1 }
    :: lanes.filter fun l => !(l.source == source && l.target == target)

end Lanes

end DiagramLayout
