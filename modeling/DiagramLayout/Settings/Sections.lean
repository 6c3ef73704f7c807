import DiagramLayout.Attachment
import DiagramLayout.Caption
import DiagramLayout.Route.Tuning

/-!
# Layout settings

All lengths, penalties and limits that a layout depends on, in one section for each dialect and one
each for the router, for the attachment of connectors and for captions. The values given here hold
wherever a settings file is silent.
-/

namespace DiagramLayout

/-- The places and sizes of actors and use cases. -/
structure UseCaseSettings where
  actorX : Float32 := 120.0
  actorStartY : Float32 := 120.0
  actorSpacing : Float32 := 130.0
  actorWidth : Float32 := 48.0
  actorHeight : Float32 := 92.0
  useCaseX : Float32 := 440.0
  useCaseStartY : Float32 := 110.0
  useCaseSpacing : Float32 := 110.0
  useCaseWidth : Float32 := 180.0
  useCaseHeight : Float32 := 60.0
  minWidth : Float32 := 860.0
  minHeight : Float32 := 360.0
  margin : Float32 := 80.0
  route : RouteSpacing := ⟨14.0, 12.0, 12.0⟩
deriving DecidableEq

/-- The places and sizes of participants, messages and activation bars. -/
structure SequenceSettings where
  participantStartX : Float32 := 120.0
  participantGap : Float32 := 180.0
  headerY : Float32 := 44.0
  headerWidth : Float32 := 120.0
  headerHeight : Float32 := 40.0
  messageStartY : Float32 := 140.0
  messageGap : Float32 := 70.0
  lifelineClearance : Float32 := 8.0
  selfLoopWidth : Float32 := 54.0
  selfLoopHeight : Float32 := 30.0
  selfLabelGap : Float32 := 4.0
  selfLabelDrop : Float32 := 12.0
  labelLift : Float32 := 8.0
  activationWidth : Float32 := 16.0
  activationLead : Float32 := 18.0
  activationTail : Float32 := 40.0
  activationMinHeight : Float32 := 28.0
  minWidth : Float32 := 900.0
  minHeight : Float32 := 420.0
  rightMargin : Float32 := 180.0
  bottomMargin : Float32 := 120.0
  lifelineBottomMargin : Float32 := 40.0
  route : RouteSpacing := ⟨12.0, 6.0, 10.0⟩
deriving DecidableEq

/-- The places and sizes of class boxes, their rows and their texts. -/
structure ClassSettings where
  startX : Float32 := 90.0
  startY : Float32 := 90.0
  gridStartY : Float32 := 100.0
  horizontalGap : Float32 := 90.0
  verticalGap : Float32 := 120.0
  gridVerticalGap : Float32 := 90.0
  gridColumnWidth : Float32 := 320.0
  minWidth : Float32 := 250.0
  maxWidth : Float32 := 320.0
  minTextWidth : Float32 := 120.0
  textPadding : Float32 := 34.0
  headerHeight : Float32 := 48.0
  rowHeight : Float32 := 24.0
  footerHeight : Float32 := 8.0
  dividerOffset : Float32 := 42.0
  rowBaseline : Float32 := 18.0
  titleBaseline : Float32 := 27.0
  textInset : Float32 := 12.0
  minLevelWidth : Float32 := 500.0
  minCanvasWidth : Float32 := 860.0
  minCanvasHeight : Float32 := 420.0
  canvasMargin : Float32 := 120.0
  charWidths : CharWidths := {}
  route : RouteSpacing := ⟨14.0, 10.0, 14.0⟩
deriving DecidableEq

/-- The places and sizes of states and pseudo states, and the lanes of parallel transitions. -/
structure StateSettings where
  startX : Float32 := 150.0
  startY : Float32 := 140.0
  cellWidth : Float32 := 230.0
  cellHeight : Float32 := 150.0
  stateWidth : Float32 := 140.0
  stateHeight : Float32 := 60.0
  pseudoStartX : Float32 := 70.0
  pseudoY : Float32 := 150.0
  startRadius : Float32 := 10.0
  endRadius : Float32 := 12.0
  endGap : Float32 := 120.0
  minRightmost : Float32 := 620.0
  laneBase : Float32 := 12.0
  laneStep : Float32 := 10.0
  pathClearance : Float32 := 4.0
  minWidth : Float32 := 900.0
  minHeight : Float32 := 460.0
  rightMargin : Float32 := 140.0
  bottomMargin : Float32 := 120.0
  route : RouteSpacing := ⟨12.0, 10.0, 12.0⟩
deriving DecidableEq

/-- All settings of a layout. -/
structure Settings where
  useCase : UseCaseSettings := {}
  sequence : SequenceSettings := {}
  classes : ClassSettings := {}
  state : StateSettings := {}
  router : RouteTuning := {}
  attachment : AttachmentRules := {}
  caption : CaptionRules := {}
deriving DecidableEq

/-- The settings of an empty settings file. -/
def Settings.standard : Settings :=
  {}

end DiagramLayout
