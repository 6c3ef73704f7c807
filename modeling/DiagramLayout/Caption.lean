import DiagramLayout.Plane.Rect
import DiagramLayout.Single.Rounding
import DiagramLayout.Text.Extent

/-!
# Captions along connectors

Captions are placed one after another. Each is tried above and below the horizontal segments of its
connector, left and right of the others, and above and below its middle. The least score wins, the
first of equals: overlapping a node costs most, then another caption, then a segment drawn before,
and the distance from the middle counts a little.
-/

namespace DiagramLayout

/-- The penalties, clearances and lengths by which captions are placed. -/
structure CaptionRules where
  nodeOverlapPenalty : Float32 := 900.0
  labelOverlapPenalty : Float32 := 700.0
  pathOverlapPenalty : Float32 := 280.0
  distanceWeight : Float32 := 0.08
  nodeClearance : Float32 := 4.0
  labelClearance : Float32 := 3.0
  pathClearance : Float32 := 2.0
  offsetAbove : Float32 := 14.0
  offsetBelow : Float32 := 18.0
  offsetSide : Float32 := 14.0
  fallbackOffset : Float32 := 18.0
  boxPadding : Float32 := 12.0
  boxHeight : Float32 := 18.0
  charWidths : CharWidths := ⟨7.2, 8.8, 7.2⟩
deriving DecidableEq

/-- Where a caption stands: its middle and its box. -/
structure Caption where
  center : Point
  box : Rect
deriving DecidableEq

/-- The boxes of the captions placed so far and of the segments drawn so far. -/
structure CaptionPlacer where
  placed : List Rect
  drawn : List Rect
deriving DecidableEq

namespace CaptionPlacer

/-- Nothing placed and nothing drawn. -/
def initial : CaptionPlacer :=
  ⟨[], []⟩

/-- The pairs of neighbours in a list. -/
def segments : List Point → List (Point × Point)
  | [] => []
  | [_] => []
  | p :: q :: rest => (p, q) :: segments (q :: rest)

/-- The boxes of the segments of a path. -/
def segmentBoxes (path : List Point) (clearance : Float32) : List Rect :=
  (segments path).map fun (p, q) => Rect.ofSegment p q clearance

/-- Marks a path as drawn. -/
def record (placer : CaptionPlacer) (path : List Point) (clearance : Float32) : CaptionPlacer :=
  ⟨placer.placed, placer.drawn ++ segmentBoxes path clearance⟩

/-- The box of a label around a point. -/
def boxAt (rules : CaptionRules) (label : String) (center : Point) : Rect :=
  let width := rules.charWidths.widthOf label + rules.boxPadding
  ⟨center.x - width / 2.0, center.y - rules.boxHeight / 2.0, width, rules.boxHeight⟩

/-- The two places beside a segment. -/
def besideSegment (rules : CaptionRules) (p q : Point) : List Point :=
  let middle := Point.mk ((p.x + q.x) / 2.0) ((p.y + q.y) / 2.0)
  if p.y == q.y then
    [⟨middle.x, p.y - rules.offsetAbove⟩, ⟨middle.x, p.y + rules.offsetBelow⟩]
  else [⟨p.x - rules.offsetSide, middle.y⟩, ⟨p.x + rules.offsetSide, middle.y⟩]

/-- The whole coordinates by which places are told apart. -/
def gridKey (p : Point) : Int × Int :=
  (Single.toInt64 (Single.nearest p.x), Single.toInt64 (Single.nearest p.y))

/-- The points of a list whose whole coordinates are new, `seen` being the coordinates so far. -/
def distinct (seen : List (Int × Int)) : List Point → List Point
  | [] => []
  | p :: rest =>
    if gridKey p ∈ seen then distinct seen rest else p :: distinct (gridKey p :: seen) rest

/-- The places that are tried for a label on a path. -/
def candidates (rules : CaptionRules) (path : List Point) (middle : Point) : List Point :=
  distinct [] <|
    (segments path).flatMap (fun (p, q) => besideSegment rules p q)
      ++ [middle.offset 0.0 (-rules.fallbackOffset), middle.offset 0.0 rules.fallbackOffset]

/-- The number of boxes that a probe intersects, weighed by a penalty. -/
def overlapCost (probe : Rect) (boxes : List Rect) (penalty : Float32) : Float32 :=
  Float32.ofNat (boxes.countP probe.intersects) * penalty

/-- The score of a label box around a place. -/
def score (placer : CaptionPlacer) (rules : CaptionRules) (nodes : List Rect) (middle : Point)
    (caption : Caption) : Float32 :=
  let box := caption.box
  0.0 + overlapCost (box.inflate rules.nodeClearance) nodes rules.nodeOverlapPenalty
    + overlapCost (box.inflate rules.labelClearance) placer.placed rules.labelOverlapPenalty
    + overlapCost (box.inflate rules.pathClearance) placer.drawn rules.pathOverlapPenalty
    + caption.center.manhattan middle * rules.distanceWeight

/-- The first item of least score. -/
def leastBy {α : Type} (score : α → Float32) : List α → Option α
  | [] => none
  | a :: rest =>
    some (rest.foldl (fun best b => if score b < best.1 then (score b, b) else best)
      (score a, a)).2

/-- The place chosen for a label on a path; none for an empty label or a path without segments. -/
def choose? (placer : CaptionPlacer) (rules : CaptionRules) (label : String) (path : List Point)
    (nodes : List Rect) : Option Caption :=
  if label.isEmpty || path.length < 2 then none
  else
    match path[path.length / 2]? with
    | none => none
    | some middle =>
      leastBy (placer.score rules nodes middle)
        ((candidates rules path middle).map fun p => ⟨p, boxAt rules label p⟩)

/-- Chooses a place for a label and keeps it. -/
def place (placer : CaptionPlacer) (rules : CaptionRules) (label : String) (path : List Point)
    (nodes : List Rect) : Option Caption × CaptionPlacer :=
  match placer.choose? rules label path nodes with
  | none => (none, placer)
  | some caption => (some caption, ⟨placer.placed ++ [caption.box], placer.drawn⟩)

end CaptionPlacer

end DiagramLayout
