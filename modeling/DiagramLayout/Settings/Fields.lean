import DiagramLayout.Settings.Field
import DiagramLayout.Settings.Sections

/-!
# The fields of the settings

For each section the list of its fields, in the order in which they are written and in which an
array gives them. A spacing or a set of advances that a file begins to describe starts from the
standard values of its kind, whatever the section around it says.
-/

namespace DiagramLayout

/-- The fields of a route spacing. -/
def RouteSpacing.fields : List (Field RouteSpacing) :=
  [.single "grid_size" (·.gridSize) fun s x => { s with gridSize := x },
   .single "padding" (·.padding) fun s x => { s with padding := x },
   .single "stub_length" (·.stubLength) fun s x => { s with stubLength := x }]

/-- The fields of the advances of characters. -/
def CharWidths.fields : List (Field CharWidths) :=
  [.single "latin" (·.latin) fun s x => { s with latin := x },
   .single "wide" (·.wide) fun s x => { s with wide := x },
   .single "space" (·.space) fun s x => { s with space := x }]

/-- The fields of the section on the router. -/
def RouteTuning.fields : List (Field RouteTuning) :=
  [.single "margin" (·.margin) fun s x => { s with margin := x },
   .single "proximity_penalty" (·.proximityPenalty) fun s x => { s with proximityPenalty := x },
   .single "turn_penalty" (·.turnPenalty) fun s x => { s with turnPenalty := x },
   .single "uturn_penalty" (·.uturnPenalty) fun s x => { s with uturnPenalty := x },
   .single "start_direction_penalty" (·.startDirectionPenalty)
     fun s x => { s with startDirectionPenalty := x },
   .count "max_expansions" (·.maxExpansions) fun s n => { s with maxExpansions := n }]

/-- The fields of the section on anchors. -/
def AttachmentRules.fields : List (Field AttachmentRules) :=
  [.single "inset" (·.inset) fun s x => { s with inset := x },
   .single "misfacing_penalty" (·.misfacingPenalty) fun s x => { s with misfacingPenalty := x },
   .single "same_side_penalty" (·.sameSidePenalty) fun s x => { s with sameSidePenalty := x }]

/-- The fields of the section on labels. -/
def CaptionRules.fields : List (Field CaptionRules) :=
  [.single "node_overlap_penalty" (·.nodeOverlapPenalty)
     fun s x => { s with nodeOverlapPenalty := x },
   .single "label_overlap_penalty" (·.labelOverlapPenalty)
     fun s x => { s with labelOverlapPenalty := x },
   .single "path_overlap_penalty" (·.pathOverlapPenalty)
     fun s x => { s with pathOverlapPenalty := x },
   .single "distance_weight" (·.distanceWeight) fun s x => { s with distanceWeight := x },
   .single "node_clearance" (·.nodeClearance) fun s x => { s with nodeClearance := x },
   .single "label_clearance" (·.labelClearance) fun s x => { s with labelClearance := x },
   .single "path_clearance" (·.pathClearance) fun s x => { s with pathClearance := x },
   .single "offset_above" (·.offsetAbove) fun s x => { s with offsetAbove := x },
   .single "offset_below" (·.offsetBelow) fun s x => { s with offsetBelow := x },
   .single "offset_side" (·.offsetSide) fun s x => { s with offsetSide := x },
   .single "fallback_offset" (·.fallbackOffset) fun s x => { s with fallbackOffset := x },
   .single "box_padding" (·.boxPadding) fun s x => { s with boxPadding := x },
   .single "box_height" (·.boxHeight) fun s x => { s with boxHeight := x },
   .record "char_widths" CharWidths.fields {} (·.charWidths) fun s w => { s with charWidths := w }]

/-- The fields of the section on use case diagrams. -/
def UseCaseSettings.fields : List (Field UseCaseSettings) :=
  [.single "actor_x" (·.actorX) fun s x => { s with actorX := x },
   .single "actor_start_y" (·.actorStartY) fun s x => { s with actorStartY := x },
   .single "actor_spacing" (·.actorSpacing) fun s x => { s with actorSpacing := x },
   .single "actor_width" (·.actorWidth) fun s x => { s with actorWidth := x },
   .single "actor_height" (·.actorHeight) fun s x => { s with actorHeight := x },
   .single "use_case_x" (·.useCaseX) fun s x => { s with useCaseX := x },
   .single "use_case_start_y" (·.useCaseStartY) fun s x => { s with useCaseStartY := x },
   .single "use_case_spacing" (·.useCaseSpacing) fun s x => { s with useCaseSpacing := x },
   .single "use_case_width" (·.useCaseWidth) fun s x => { s with useCaseWidth := x },
   .single "use_case_height" (·.useCaseHeight) fun s x => { s with useCaseHeight := x },
   .single "min_width" (·.minWidth) fun s x => { s with minWidth := x },
   .single "min_height" (·.minHeight) fun s x => { s with minHeight := x },
   .single "margin" (·.margin) fun s x => { s with margin := x },
   .record "route" RouteSpacing.fields {} (·.route) fun s r => { s with route := r }]

/-- The fields of the section on sequence diagrams. -/
def SequenceSettings.fields : List (Field SequenceSettings) :=
  [.single "participant_start_x" (·.participantStartX) fun s x => { s with participantStartX := x },
   .single "participant_gap" (·.participantGap) fun s x => { s with participantGap := x },
   .single "header_y" (·.headerY) fun s x => { s with headerY := x },
   .single "header_width" (·.headerWidth) fun s x => { s with headerWidth := x },
   .single "header_height" (·.headerHeight) fun s x => { s with headerHeight := x },
   .single "message_start_y" (·.messageStartY) fun s x => { s with messageStartY := x },
   .single "message_gap" (·.messageGap) fun s x => { s with messageGap := x },
   .single "lifeline_clearance" (·.lifelineClearance) fun s x => { s with lifelineClearance := x },
   .single "self_loop_width" (·.selfLoopWidth) fun s x => { s with selfLoopWidth := x },
   .single "self_loop_height" (·.selfLoopHeight) fun s x => { s with selfLoopHeight := x },
   .single "self_label_gap" (·.selfLabelGap) fun s x => { s with selfLabelGap := x },
   .single "self_label_drop" (·.selfLabelDrop) fun s x => { s with selfLabelDrop := x },
   .single "label_lift" (·.labelLift) fun s x => { s with labelLift := x },
   .single "activation_width" (·.activationWidth) fun s x => { s with activationWidth := x },
   .single "activation_lead" (·.activationLead) fun s x => { s with activationLead := x },
   .single "activation_tail" (·.activationTail) fun s x => { s with activationTail := x },
   .single "activation_min_height" (·.activationMinHeight)
     fun s x => { s with activationMinHeight := x },
   .single "min_width" (·.minWidth) fun s x => { s with minWidth := x },
   .single "min_height" (·.minHeight) fun s x => { s with minHeight := x },
   .single "right_margin" (·.rightMargin) fun s x => { s with rightMargin := x },
   .single "bottom_margin" (·.bottomMargin) fun s x => { s with bottomMargin := x },
   .single "lifeline_bottom_margin" (·.lifelineBottomMargin)
     fun s x => { s with lifelineBottomMargin := x },
   .record "route" RouteSpacing.fields {} (·.route) fun s r => { s with route := r }]

/-- The fields of the section on class diagrams. -/
def ClassSettings.fields : List (Field ClassSettings) :=
  [.single "start_x" (·.startX) fun s x => { s with startX := x },
   .single "start_y" (·.startY) fun s x => { s with startY := x },
   .single "grid_start_y" (·.gridStartY) fun s x => { s with gridStartY := x },
   .single "horizontal_gap" (·.horizontalGap) fun s x => { s with horizontalGap := x },
   .single "vertical_gap" (·.verticalGap) fun s x => { s with verticalGap := x },
   .single "grid_vertical_gap" (·.gridVerticalGap) fun s x => { s with gridVerticalGap := x },
   .single "grid_column_width" (·.gridColumnWidth) fun s x => { s with gridColumnWidth := x },
   .single "min_width" (·.minWidth) fun s x => { s with minWidth := x },
   .single "max_width" (·.maxWidth) fun s x => { s with maxWidth := x },
   .single "min_text_width" (·.minTextWidth) fun s x => { s with minTextWidth := x },
   .single "text_padding" (·.textPadding) fun s x => { s with textPadding := x },
   .single "header_height" (·.headerHeight) fun s x => { s with headerHeight := x },
   .single "row_height" (·.rowHeight) fun s x => { s with rowHeight := x },
   .single "footer_height" (·.footerHeight) fun s x => { s with footerHeight := x },
   .single "divider_offset" (·.dividerOffset) fun s x => { s with dividerOffset := x },
   .single "row_baseline" (·.rowBaseline) fun s x => { s with rowBaseline := x },
   .single "title_baseline" (·.titleBaseline) fun s x => { s with titleBaseline := x },
   .single "text_inset" (·.textInset) fun s x => { s with textInset := x },
   .single "min_level_width" (·.minLevelWidth) fun s x => { s with minLevelWidth := x },
   .single "min_canvas_width" (·.minCanvasWidth) fun s x => { s with minCanvasWidth := x },
   .single "min_canvas_height" (·.minCanvasHeight) fun s x => { s with minCanvasHeight := x },
   .single "canvas_margin" (·.canvasMargin) fun s x => { s with canvasMargin := x },
   .record "char_widths" CharWidths.fields {} (·.charWidths) fun s w => { s with charWidths := w },
   .record "route" RouteSpacing.fields {} (·.route) fun s r => { s with route := r }]

/-- The fields of the section on state diagrams. -/
def StateSettings.fields : List (Field StateSettings) :=
  [.single "start_x" (·.startX) fun s x => { s with startX := x },
   .single "start_y" (·.startY) fun s x => { s with startY := x },
   .single "cell_width" (·.cellWidth) fun s x => { s with cellWidth := x },
   .single "cell_height" (·.cellHeight) fun s x => { s with cellHeight := x },
   .single "state_width" (·.stateWidth) fun s x => { s with stateWidth := x },
   .single "state_height" (·.stateHeight) fun s x => { s with stateHeight := x },
   .single "pseudo_start_x" (·.pseudoStartX) fun s x => { s with pseudoStartX := x },
   .single "pseudo_y" (·.pseudoY) fun s x => { s with pseudoY := x },
   .single "start_radius" (·.startRadius) fun s x => { s with startRadius := x },
   .single "end_radius" (·.endRadius) fun s x => { s with endRadius := x },
   .single "end_gap" (·.endGap) fun s x => { s with endGap := x },
   .single "min_rightmost" (·.minRightmost) fun s x => { s with minRightmost := x },
   .single "lane_base" (·.laneBase) fun s x => { s with laneBase := x },
   .single "lane_step" (·.laneStep) fun s x => { s with laneStep := x },
   .single "path_clearance" (·.pathClearance) fun s x => { s with pathClearance := x },
   .single "min_width" (·.minWidth) fun s x => { s with minWidth := x },
   .single "min_height" (·.minHeight) fun s x => { s with minHeight := x },
   .single "right_margin" (·.rightMargin) fun s x => { s with rightMargin := x },
   .single "bottom_margin" (·.bottomMargin) fun s x => { s with bottomMargin := x },
   .record "route" RouteSpacing.fields {} (·.route) fun s r => { s with route := r }]

/-- The sections of the settings. -/
def Settings.fields : List (Field Settings) :=
  [.record "usecase" UseCaseSettings.fields {} (·.useCase) fun s x => { s with useCase := x },
   .record "sequence" SequenceSettings.fields {} (·.sequence) fun s x => { s with sequence := x },
   .record "class" ClassSettings.fields {} (·.classes) fun s x => { s with classes := x },
   .record "state" StateSettings.fields {} (·.state) fun s x => { s with state := x },
   .record "router" RouteTuning.fields {} (·.router) fun s x => { s with router := x },
   .record "anchor" AttachmentRules.fields {} (·.attachment) fun s x => { s with attachment := x },
   .record "label" CaptionRules.fields {} (·.caption) fun s x => { s with caption := x }]

end DiagramLayout
