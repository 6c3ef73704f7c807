import DiagramLayout.Scene.Basic
import DiagramLayout.Settings.Sections

/-!
# Class boxes

The box of a class is as wide as its widest text asks, within limits, and as high as its rows ask.
It has a title and two parts, the attributes and the methods; a part without members has one row
with a dash. A text that is wider than the box is shortened.
-/

namespace DiagramLayout

/-- The width and the height of a box. -/
structure Size where
  width : Float32
  height : Float32
deriving DecidableEq, Inhabited

namespace ClassNode

/-- All texts in the box of a class. -/
def texts (c : ClassNode) : List String :=
  c.name :: c.attributes ++ c.methods

/-- The rows that a part with these members has. -/
def rowsOf (members : List String) : List String :=
  if members.isEmpty then ["-"] else members

end ClassNode

namespace ClassSettings

/-- The width of the box of a class. -/
def boxWidth (s : ClassSettings) (c : ClassNode) : Float32 :=
  let widths := c.texts.map s.charWidths.widthOf
  let widest := widths.foldl Single.greater s.minTextWidth
  Single.greater (Single.lesser (Single.ceil (widest + s.textPadding)) s.maxWidth) s.minWidth

/-- The height of a part with these members. -/
def partHeight (s : ClassSettings) (members : List String) : Float32 :=
  Float32.ofNat (max 1 members.length) * s.rowHeight

/-- The height of the box of a class. -/
def boxHeight (s : ClassSettings) (c : ClassNode) : Float32 :=
  s.headerHeight + s.partHeight c.attributes + s.partHeight c.methods + s.footerHeight

/-- The size of the box of a class. -/
def sizeOf (s : ClassSettings) (c : ClassNode) : Size :=
  ⟨s.boxWidth c, s.boxHeight c⟩

/-- Where a row begins: on the left of the box, or on the right for a text that runs leftwards. -/
def rowX (s : ClassSettings) (box : Rect) : TextDirection → Float32
  | .leftToRight => box.x + s.textInset
  | .rightToLeft => box.x + box.width - s.textInset

/-- The row at an index of a part that begins at a height. -/
def row (s : ClassSettings) (box : Rect) (part : Section) (top : Float32) (index : Nat)
    (member : String) : MemberRow :=
  let direction := TextDirection.ofText member
  { part := part
    text := s.charWidths.fit (box.width - 2.0 * s.textInset) member
    position := ⟨s.rowX box direction, top + s.rowBaseline + Float32.ofNat index * s.rowHeight⟩
    direction := direction }

/-- The rows of a part that begins at a height. -/
def rows (s : ClassSettings) (box : Rect) (part : Section) (top : Float32)
    (members : List String) : List MemberRow :=
  (ClassNode.rowsOf members).mapIdx (s.row box part top)

/-- The inside of the box of a class. -/
def compartments (s : ClassSettings) (box : Rect) (c : ClassNode) : Compartments :=
  let header := box.y + s.dividerOffset
  let members := header + s.partHeight c.attributes
  { className := c.name
    title := ⟨box.x + box.width / 2.0, box.y + s.titleBaseline⟩
    headerDivider := header
    membersDivider := members
    rows := s.rows box .attributes header c.attributes ++ s.rows box .methods members c.methods }

end ClassSettings

end DiagramLayout
