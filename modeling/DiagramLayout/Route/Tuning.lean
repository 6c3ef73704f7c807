/-!
# Tuning the router

`RouteSpacing` gives the lengths that a family of connectors is drawn with, `RouteTuning` the
margin of the routing grid, the cost model of the search and its limit.
-/

namespace DiagramLayout

/-- The lengths of a family of connectors: the pitch of the grid, the room kept around obstacles
and the straight piece in front of an anchor. -/
structure RouteSpacing where
  gridSize : Float32 := 14.0
  padding : Float32 := 14.0
  stubLength : Float32 := 14.0
deriving DecidableEq

/-- The margin of the grid, the costs added to the unit cost of a step, and the number of poses that
a search may expand. -/
structure RouteTuning where
  margin : Float32 := 80.0
  proximityPenalty : Float32 := 0.14
  turnPenalty : Float32 := 0.9
  uturnPenalty : Float32 := 0.6
  startDirectionPenalty : Float32 := 0.45
  maxExpansions : Nat := 250000
deriving DecidableEq

/-- Whether some penalty is not a number. -/
def RouteTuning.isUndefined (t : RouteTuning) : Bool :=
  t.proximityPenalty.isNaN || t.turnPenalty.isNaN || t.uturnPenalty.isNaN
    || t.startDirectionPenalty.isNaN

end DiagramLayout
