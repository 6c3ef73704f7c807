import DiagramLayout.Proofs.Route.Checked.Search

/-!
# Routing without faults

Whatever the numbers of a connector are, its grid has at least two columns and rows, no more cells
than may be searched and one mark for each cell, and the connector is routed without fault: no column,
row or place needs more than 32 bits, nothing is read or written outside an array, and no number is
held to an empty interval.
-/

namespace DiagramLayout

namespace Checked

variable {c : Connector} {g : Grid}

/-- The quest of a connector on its grid is modest. -/
theorem isModest_questOn (h : c.grid? = some g) :
  (c.questOn g).IsModest
  := by
  have hg : g.IsModest := Grid.isModest_of_build? h
  obtain ⟨l, rfl, hl⟩ := Connector.grid?_eq_some h
  exact ⟨(hg.free _).free _, Lattice.inBounds_nearestCell hl _, Lattice.inBounds_nearestCell hl _⟩

/-- The quest of a connector on its grid is set up without a fault. -/
theorem questOn_eq (h : c.grid? = some g) :
  questOn c g = pure (c.questOn g)
  := by
  have hg : g.IsModest := Grid.isModest_of_build? h
  have hstart : g.lattice.inBounds (g.lattice.nearestCell c.routingStart) = true :=
    (isModest_questOn h).start
  have hgoal : g.lattice.inBounds (g.lattice.nearestCell c.routingFinish) = true :=
    (isModest_questOn h).goal
  rw [questOn, nearestCell_eq hg.lattice, pure_bind, nearestCell_eq hg.lattice, pure_bind,
    free_eq hg hstart, pure_bind, free_eq (hg.free _) hgoal, pure_bind]
  rfl

/-- The grid and the quest of a connector are set up without a fault. -/
theorem quest?_eq (c : Connector) :
  quest? c = pure (c.grid?.map fun g => (g, c.questOn g))
  := by
  rw [quest?, build?_eq, pure_bind, ← Connector.grid?]
  cases hgrid : c.grid? with
  | none => rfl
  | some g => simp only [questOn_eq hgrid, pure_bind, Option.map_some]

/-- The stops along the grid are found without a fault. -/
theorem gridStops?_eq (c : Connector) :
  gridStops? c = c.gridStops?.map .ok
  := by
  rw [gridStops?, quest?_eq, Connector.gridStops?]
  cases hgrid : c.grid? with
  | none => rfl
  | some g =>
    simp only [pure, Except.pure, Option.map_some, solve?_eq (isModest_questOn hgrid),
      Option.map_map]
    rfl

end Checked

/-- Whatever the numbers are, a grid that is built has at least two columns and rows, at most four
million cells and one mark for each of them, and it is built without fault; and whatever the anchors,
the obstacles, the spacing and the tuning are, a connector is routed without fault. -/
theorem Connector.route?_withoutFault :
  (∀ origin points rects gridSize margin,
    Checked.build? origin points rects gridSize margin
        = .ok (Grid.build? origin points rects gridSize margin)
      ∧ ∀ g, Grid.build? origin points rects gridSize margin = some g →
        2 ≤ g.lattice.cols ∧ 2 ≤ g.lattice.rows ∧ g.lattice.cols * g.lattice.rows ≤ 4000000
          ∧ g.blocked.size = g.lattice.cols * g.lattice.rows)
  ∧ ∀ c : Connector, Checked.route? c = c.route?.map .ok
  := by
  constructor
  · intro origin points rects gridSize margin
    refine ⟨Checked.build?_eq origin points rects gridSize margin, ?_⟩
    intro g h
    obtain ⟨⟨hcols, hrows, hsize⟩, hblocked⟩ := Grid.isModest_of_build? h
    exact ⟨hcols, hrows, hsize, hblocked⟩
  · intro c
    rw [Checked.route?, Checked.gridStops?_eq, Connector.route?, Option.map_map, Option.map_map]
    rfl

end DiagramLayout
