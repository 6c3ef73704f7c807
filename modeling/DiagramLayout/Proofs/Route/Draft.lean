import DiagramLayout.Proofs.Route.Legs
import DiagramLayout.Route.Connector

/-!
# Drafts of connectors

A draft consists of the stubs and of the points between them, on a way through the grid or on the
single turn that is taken where there is none. It leads from the one anchor to the other, whatever
their coordinates are, and so does the connector itself.
-/

namespace DiagramLayout.Connector

variable {c : Connector} {R : Point → Point → Prop}

/-! ### The grid of a connector -/

/-- A connector has a grid when its points and padded obstacles can be covered. -/
theorem grid?_eq_some {g : Grid} (h : c.grid? = some g) :
  ∃ l, g = Grid.ofRects l c.padded ∧ Lattice.cover? c.routingStart
    [c.start.point, c.finish.point, c.routingStart, c.routingFinish] c.padded c.spacing.gridSize
    c.tuning.margin = some l
  := by
  obtain ⟨l, hl, rfl⟩ := Option.map_eq_some_iff.mp h
  exact ⟨l, rfl, hl⟩

/-- Without a grid the route leads over one elbow. -/
theorem route?_of_grid?_eq_none (h : c.grid? = none) :
  c.route? = some (Polyline.simplify (c.draft none))
  := by
  simp only [route?, gridStops?, h, Option.map_some]

/-- With a way through the grid the route leads along its vertices. -/
theorem route?_eq_some {g : Grid} {cells : List Cell} (hgrid : c.grid? = some g)
    (hway : (c.questOn g).solve? = some (some cells)) :
  c.route? = some (Polyline.simplify
    (c.draft (some (cells.tail.dropLast.map g.lattice.vertex))))
  := by
  simp only [route?, gridStops?, hgrid, hway, Option.map_some]

/-! ### The legs of a draft -/

/-- The points behind the first stub and up to the last one. -/
def middle (c : Connector) : Option (List Point) → List Point
  | some stops => c.along stops
  | none => c.fallback

/-- A draft consists of the first stub, the middle and the last stub. -/
theorem draft_eq (c : Connector) (stops : Option (List Point)) :
  c.draft stops = c.lead ++ c.middle stops ++ c.trailing
  := by
  cases stops with
  | some stops => rfl
  | none => rfl

/-- The middle ends where the last stub begins. -/
theorem exists_middle_concat (c : Connector) (stops : Option (List Point)) :
  ∃ ps, c.middle stops = ps ++ [c.routingFinish]
  := by
  cases stops with
  | some stops =>
    apply Polyline.exists_withElbows_concat c.routingStart (c.turning stops) c.lastStop
  | none =>
    let corner := Point.mk c.routingStart.x c.routingFinish.y
    obtain ⟨ps, hps⟩ := Polyline.exists_withElbows_concat corner [] c.lastStop
    use corner :: ps
    rw [middle, fallback]
    exact congrArg (corner :: ·) hps

theorem stubEnd_of_free {a : Anchor} (spacing : RouteSpacing) (h : ¬a.side.isSome) :
  stubEnd spacing a = a.point
  := by
  rw [stubEnd, Option.not_isSome_iff_eq_none.mp h]

theorem map_turning (c : Connector) (stops : List Point) :
  (c.turning stops).map Prod.fst = stops
  := by
  cases stops with
  | nil => rfl
  | cons p rest =>
    rw [turning, List.map_cons, List.map_map]
    congr 1
    apply List.map_id

/-- The legs of a draft are the stubs and the legs between them. -/
theorem isChain_draft {stops : Option (List Point)} (hlead : R c.start.point c.routingStart)
    (hmiddle : (c.routingStart :: c.middle stops).IsChain R)
    (htrailing : R c.routingFinish c.finish.point) :
  (c.draft stops).IsChain R
  := by
  have hfront : (c.lead ++ c.middle stops).IsChain R := by
    rw [lead]
    split_ifs with hside
    · exact List.isChain_cons_cons.mpr ⟨hlead, hmiddle⟩
    · rw [← stubEnd_of_free c.spacing hside]
      apply hmiddle
  rw [draft_eq, trailing]
  split_ifs
  · obtain ⟨ps, hps⟩ := c.exists_middle_concat stops
    rw [hps] at hfront ⊢
    rw [← List.append_assoc] at hfront ⊢
    rw [List.append_assoc]
    apply List.isChain_split.mpr ⟨hfront, _⟩
    exact List.isChain_pair.mpr htrailing
  · rw [List.append_nil]
    apply hfront

/-- What holds along the elbows between the stops holds along the way over them. -/
theorem isChain_along {stops : List Point}
    (h : (c.routingStart :: (stops ++ [c.routingFinish])).IsChain fun p q =>
      ∀ b, (p :: (Polyline.elbow p q b ++ [q])).IsChain R) :
  (c.routingStart :: c.along stops).IsChain R
  := by
  apply Polyline.isChain_withElbows
  rw [List.map_append, map_turning]
  exact h

/-! ### The ends of a connector -/

/-- A draft begins at the start. -/
theorem head?_draft (c : Connector) (stops : Option (List Point)) :
  (c.draft stops).head? = some c.start.point
  := by
  rw [draft_eq, lead]
  split_ifs
  · rfl
  · rfl

/-- A draft ends at the end. -/
theorem getLast?_draft (c : Connector) (stops : Option (List Point)) :
  (c.draft stops).getLast? = some c.finish.point
  := by
  obtain ⟨ps, hps⟩ := c.exists_middle_concat stops
  rw [draft_eq, hps, trailing]
  split_ifs with hside
  · apply List.getLast?_concat
  · rw [List.append_nil, ← List.append_assoc, List.getLast?_concat, routingFinish,
      stubEnd_of_free c.spacing hside]

/-- A connector that is drawn starts at its first anchor and ends at the other one or close to it,
whatever the coordinates of the anchors are and whether or not the grid has a way. -/
theorem route?_ends (c : Connector) {path : List Point} (h : c.route? = some path) :
  path ≠ [] ∧ path.head? = some c.start.point
    ∧ ∃ p, path.getLast? = some p ∧ (p = c.finish.point ∨ p.isClose c.finish.point = true)
  := by
  obtain ⟨stops, -, rfl⟩ := Option.map_eq_some_iff.mp h
  have hhead : (Polyline.simplify (c.draft stops)).head? = some c.start.point := by
    rw [Polyline.head?_simplify, head?_draft]
  refine ⟨?_, hhead, ?_⟩
  · intro hnil
    rw [hnil] at hhead
    contradiction
  · apply Polyline.exists_getLast?_simplify (c.getLast?_draft stops)

/-- A connector to an anchor that is infinitely far away. -/
def outOfReach : Connector :=
  ⟨⟨⟨0.0, 0.0⟩, some .right⟩, ⟨⟨Single.infinite, Single.undefined⟩, none⟩, [], {}, {}⟩

/-- A route to an anchor out of reach begins and ends as all routes do. -/
theorem route?_ends_outOfReach :
  ∃ path, outOfReach.route? = some path ∧ path ≠ [] ∧ path.head? = some outOfReach.start.point
    ∧ ∃ p, path.getLast? = some p
      ∧ (p = outOfReach.finish.point ∨ p.isClose outOfReach.finish.point = true)
  := by
  have hgrid : outOfReach.grid? = none := by
    apply Option.isNone_iff_eq_none.mp
    decide +kernel
  have hroute := route?_of_grid?_eq_none hgrid
  exact ⟨_, hroute, route?_ends outOfReach hroute⟩

end DiagramLayout.Connector
