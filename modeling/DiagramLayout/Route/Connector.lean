import DiagramLayout.Route.Polyline
import DiagramLayout.Route.Search

/-!
# Connectors

A connector leads from one anchor to another in axis-aligned segments and keeps its distance from
obstacles. It leaves an anchor on a side by a straight stub. Between the stubs it follows the way
found on a grid around the obstacles; where there is none, it takes a single turn and crosses what
is in between.
-/

namespace DiagramLayout

/-- The task of connecting two anchors. -/
structure Connector where
  start : Anchor
  finish : Anchor
  obstacles : List Obstacle
  spacing : RouteSpacing
  tuning : RouteTuning

namespace Connector

/-- The end of the stub of an anchor, at the anchor itself when it is free. -/
def stubEnd (spacing : RouteSpacing) (a : Anchor) : Point :=
  match a.side with
  | none => a.point
  | some side =>
    ⟨a.point.x + side.normal.x * spacing.stubLength, a.point.y + side.normal.y * spacing.stubLength⟩

/-- Where the way through the grid begins. -/
def routingStart (c : Connector) : Point :=
  stubEnd c.spacing c.start

/-- Where the way through the grid ends. -/
def routingFinish (c : Connector) : Point :=
  stubEnd c.spacing c.finish

/-- The obstacles grown by the padding. -/
def padded (c : Connector) : List Rect :=
  c.obstacles.map fun o => o.rect.inflate c.spacing.padding

/-- The grid around the anchors and the obstacles. -/
def grid? (c : Connector) : Option Grid :=
  Grid.build? c.routingStart [c.start.point, c.finish.point, c.routingStart, c.routingFinish]
    c.padded c.spacing.gridSize c.tuning.margin

/-- The quest on a grid whose ends are freed. -/
def questOn (c : Connector) (g : Grid) : Quest :=
  let start := g.lattice.nearestCell c.routingStart
  let goal := g.lattice.nearestCell c.routingFinish
  ⟨(g.free start).free goal, start, goal, c.start.side.map Heading.ofSide, c.tuning⟩

/-- The points between the stubs on the way found on the grid, if there is one. There is no answer
where the search has none. -/
def gridStops? (c : Connector) : Option (Option (List Point)) :=
  match c.grid? with
  | none => some none
  | some g =>
    (c.questOn g).solve?.map fun way => way.map fun cells => cells.tail.dropLast.map g.lattice.vertex

/-- The points up to the end of the first stub. -/
def lead (c : Connector) : List Point :=
  if c.start.side.isSome then [c.start.point, c.routingStart] else [c.start.point]

/-- The points behind the end of the last stub. -/
def trailing (c : Connector) : List Point :=
  if c.finish.side.isSome then [c.finish.point] else []

/-- The stops, of which the first is left as the start asks and the others horizontally first. -/
def turning (c : Connector) : List Point → List (Point × Bool)
  | [] => []
  | p :: rest => (p, c.start.isHorizontal) :: rest.map fun q => (q, true)

/-- The last stop, which is entered as the end asks. -/
def lastStop (c : Connector) : Point × Bool :=
  (c.routingFinish, !c.finish.isHorizontal)

/-- The points behind the first stub on a way along stops. -/
def along (c : Connector) (stops : List Point) : List Point :=
  Polyline.withElbows c.routingStart (c.turning stops ++ [c.lastStop])

/-- The points behind the first stub where the grid has no way. -/
def fallback (c : Connector) : List Point :=
  let corner := Point.mk c.routingStart.x c.routingFinish.y
  corner :: Polyline.withElbows corner [c.lastStop]

/-- All points of the connector on a way along stops before it is simplified, or on the single turn
where there is no way. -/
def draft (c : Connector) (stops : Option (List Point)) : List Point :=
  let middle :=
    match stops with
    | some stops => c.along stops
    | none => c.fallback
  c.lead ++ middle ++ c.trailing

/-- The points of the connector; none where it is never drawn, as the search has no answer. -/
def route? (c : Connector) : Option (List Point) :=
  c.gridStops?.map fun stops => Polyline.simplify (c.draft stops)

/-- The points of the connector, provided that it is drawn. -/
def route (c : Connector) : List Point :=
  c.route?.getD []

end Connector

end DiagramLayout
