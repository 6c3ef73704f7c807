import DiagramLayout.Plane.Anchor

/-!
# Attaching connectors

A connector is attached to two rectangles at the pair of sides that scores least. On each side the
anchor stands as close to the middle of the other rectangle as the corners allow. The score is the
distance of the anchors, with a penalty for each side that faces away and one for equal sides; of
equal scores the first in the order of search wins.
-/

namespace DiagramLayout

/-- The room kept from the corners, and the penalties for a side that faces away and for equal
sides. -/
structure AttachmentRules where
  inset : Float32 := 12.0
  misfacingPenalty : Float32 := 180.0
  sameSidePenalty : Float32 := 28.0
deriving DecidableEq

namespace Rect

/-- The value held to an interval; the lower end when the interval is inverted. -/
def held (value low high : Float32) : Float32 :=
  Single.greater (Single.lesser value high) low

/-- The anchor on a side that is nearest to `toward` and at least `inset` away from the corners. -/
def projected (r : Rect) (side : Side) (toward : Point) (inset : Float32) : Anchor :=
  match side with
  | .left => .onSide r.x (held toward.y (r.y + inset) (r.bottom - inset)) side
  | .right => .onSide r.right (held toward.y (r.y + inset) (r.bottom - inset)) side
  | .top => .onSide (held toward.x (r.x + inset) (r.right - inset)) r.y side
  | .bottom => .onSide (held toward.x (r.x + inset) (r.right - inset)) r.bottom side

/-- The anchor that divides a side by `ratio`. -/
def dividing (r : Rect) (side : Side) (ratio : Float32) : Anchor :=
  match side with
  | .top => .onSide (r.x + r.width * ratio) r.y side
  | .bottom => .onSide (r.x + r.width * ratio) r.bottom side
  | .left => .onSide r.x (r.y + r.height * ratio) side
  | .right => .onSide r.right (r.y + r.height * ratio) side

end Rect

/-- The two ends of a connector. -/
structure Attachment where
  start : Anchor
  finish : Anchor
deriving DecidableEq

namespace Attachment

/-- The score of a pair of ends; less is better. -/
def score (rules : AttachmentRules) (a : Attachment) : Float32 :=
  let dx := a.finish.point.x - a.start.point.x
  let dy := a.finish.point.y - a.start.point.y
  let distance := dx.abs + dy.abs
  let out := a.start.normal
  let facing :=
    if out.x * dx + out.y * dy < 0.0 then distance + rules.misfacingPenalty else distance
  let into := a.finish.normal
  let faced :=
    if into.x * -dx + into.y * -dy < 0.0 then facing + rules.misfacingPenalty else facing
  if a.start.side.isSome && a.start.side == a.finish.side then faced + rules.sameSidePenalty
  else faced

/-- The ends on two given sides. -/
def onSides (source target : Rect) (inset : Float32) (s t : Side) : Attachment :=
  ⟨source.projected s target.center inset, target.projected t source.center inset⟩

/-- The ends on all pairs of sides in the order of search. -/
def candidates (source target : Rect) (inset : Float32) : List Attachment :=
  Side.searchOrder.flatMap fun s => Side.searchOrder.map fun t => onSides source target inset s t

/-- Takes a candidate in place of the best one so far when its score is less. -/
def better (rules : AttachmentRules) (best : Float32 × Attachment) (a : Attachment) :
    Float32 × Attachment :=
  if a.score rules < best.1 then (a.score rules, a) else best

/-- The best ends for a connector between two rectangles. -/
def select (source target : Rect) (rules : AttachmentRules) : Attachment :=
  ((candidates source target rules.inset).foldl (better rules)
    (Single.infinite, onSides source target rules.inset .left .left)).2

end Attachment

end DiagramLayout
