import DiagramLayout.Proofs.Route.Alignment

/-!
# Repeated points of a connector

Points that repeat the one before are dropped first, the middle of straight runs after them. Where a
draft runs straight on and straight back to where it came from, the far end of this run is such a
middle, and a connector without it has a leg without length. There is no other way to such a leg.
-/

namespace DiagramLayout

/-- The polyline comes from `p` by `m` to `q` in one column or row, and `m` lies apart from `q`. -/
structure Polyline.RunsBy (ps : List Point) (p m q : Point) : Prop where
  sublist : [p, m, q].Sublist ps
  straight : isStraight p m q = true
  apart : m.isClose q = false

/-- When a leg of a simplified polyline has close ends, the polyline doubles back between them. -/
theorem Polyline.isChain_runsBy_simplify (ps : List Point) :
  (simplify ps).IsChain fun p q => p.isClose q = true → ∃ m, RunsBy ps p m q
  := by
  cases ps with
  | nil => apply List.isChain_nil
  | cons first rest =>
    apply isChain_dropMiddles _ _ (isChain_isClose_dropRepeats first rest)
    · intro p q hpq hclose
      rw [hpq] at hclose
      contradiction
    · intro p m q hsub hrun _ hmq _
      have hkept := (dropRepeats_sublist first rest).cons_cons first
      exact ⟨m, hsub.trans hkept, hrun, hmq⟩

namespace Connector

/-- A connector that is drawn follows a draft, and no leg of it has close ends, unless the draft runs
straight on from the one end and straight back to the other. -/
theorem route?_repeats (c : Connector) {path : List Point} (h : c.route? = some path) :
  ∃ stops, c.gridStops? = some stops ∧ path.IsChain fun p q =>
    p.isClose q = true → ∃ m, Polyline.RunsBy (c.draft stops) p m q
  := by
  obtain ⟨stops, hstops, rfl⟩ := Option.map_eq_some_iff.mp h
  exact ⟨stops, hstops, Polyline.isChain_runsBy_simplify (c.draft stops)⟩

/-- A connector that comes from above to a point where it enters from the right. -/
def hooked : Connector :=
  ⟨⟨⟨0.0, -2.0⟩, some .bottom⟩, ⟨⟨0.0, 0.0⟩, some .right⟩, [], ⟨1.0, 1.0, 1.0⟩, { margin := 0.0 }⟩

theorem route?_hooked :
  hooked.route? = some [⟨0.0, -2.0⟩, ⟨0.0, 0.0⟩, ⟨0.0, 0.0⟩]
  := by
  have hback : (hooked.grid?.bind fun g => (hooked.questOn g).meet?.bind fun met =>
      (met.2.parent? (hooked.questOn g) met.1).bind fun o =>
        (met.2.parent? (hooked.questOn g) o).map fun r =>
          decide (met.2.parent? (hooked.questOn g) r = none
            ∧ g.lattice.vertex o.cell = ⟨0.0, 0.0⟩))
      = some true := by
    decide +kernel
  obtain ⟨g, hgrid, hback⟩ := Option.bind_eq_some_iff.mp hback
  obtain ⟨⟨p, labels⟩, hmeet, hback⟩ := Option.bind_eq_some_iff.mp hback
  obtain ⟨o, ho, hback⟩ := Option.bind_eq_some_iff.mp hback
  obtain ⟨r, hr, hend⟩ := Option.map_eq_some_iff.mp hback
  obtain ⟨hstart, hvertex⟩ := of_decide_eq_true hend
  have htrail := Labels.Trail.step ho (Labels.Trail.step hr (Labels.Trail.origin hstart))
  have hway : (hooked.questOn g).solve? = some (some ([r.cell] ++ [o.cell] ++ [p.cell])) := by
    rw [Quest.solve?, hmeet, Quest.answer?, Labels.trail?_eq_some_iff.mpr htrail, Option.map_some]
  rw [route?_eq_some hgrid hway]
  simp only [List.cons_append, List.nil_append, List.tail_cons, List.dropLast_cons_cons,
    List.dropLast_singleton, List.map_cons, List.map_nil, hvertex]
  decide +kernel

/-- The way to the stub in front of an anchor can lead through the anchor itself, and then the
connector keeps a leg without length. -/
theorem exists_repeat_hooked :
  hooked.IsTame ∧ hooked.tuning.HasPenalties ∧ ∃ path, hooked.route? = some path
    ∧ ¬path.IsChain fun p q => p.isClose q = false
  := by
  exact ⟨by decide, by decide, _, route?_hooked, by decide⟩

theorem route?_repeats_hooked :
  ∃ path, hooked.route? = some path ∧ ∃ stops, hooked.gridStops? = some stops
    ∧ path.IsChain fun p q =>
      p.isClose q = true → ∃ m, Polyline.RunsBy (hooked.draft stops) p m q
  := by
  exact ⟨_, route?_hooked, route?_repeats hooked route?_hooked⟩

end Connector

end DiagramLayout
