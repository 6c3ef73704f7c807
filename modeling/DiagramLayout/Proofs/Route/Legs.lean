import DiagramLayout.Route.Polyline
import Mathlib.Data.List.Chain

/-!
# The legs of a polyline

A polyline along stops ends at the last one, and what holds of the legs to each stop holds of all its
legs. A simplified polyline starts at the first point of the polyline and ends at the last one, or
close to it. What holds of every leg of a polyline holds of every leg of the simplified one, provided
that it holds of a straight run when it holds of its pieces.
-/

namespace DiagramLayout.Polyline

variable {R S : Point → Point → Prop} {p last : Point} {ps : List Point}

/-! ### Along stops -/

theorem exists_withElbows_concat (last : Point) (stops : List (Point × Bool)) (stop : Point × Bool) :
  ∃ ps, withElbows last (stops ++ [stop]) = ps ++ [stop.1]
  := by
  induction stops generalizing last with
  | nil => exact ⟨elbow last stop.1 stop.2, rfl⟩
  | cons first rest ih =>
    obtain ⟨next, b⟩ := first
    obtain ⟨ps, hps⟩ := ih next
    use elbow last next b ++ next :: ps
    rw [List.cons_append, withElbows, hps, List.append_assoc]
    rfl

/-- What holds of the legs to each stop holds of the legs along all stops. -/
theorem isChain_withElbows {stops : List (Point × Bool)}
    (h : (last :: stops.map Prod.fst).IsChain fun p q =>
      ∀ b, (p :: (elbow p q b ++ [q])).IsChain R) :
  (last :: withElbows last stops).IsChain R
  := by
  induction stops generalizing last with
  | nil => apply List.isChain_singleton
  | cons stop rest ih =>
    obtain ⟨next, b⟩ := stop
    obtain ⟨hnext, hrest⟩ := List.isChain_cons_cons.mp h
    exact List.isChain_cons_split.mpr ⟨hnext b, ih hrest⟩

/-! ### Without repeated points -/

/-- Dropping repeated points keeps the others in order. -/
theorem dropRepeats_sublist (last : Point) (ps : List Point) :
  (dropRepeats last ps).Sublist ps
  := by
  fun_induction dropRepeats last ps with
  | case1 last => apply List.Sublist.refl
  | case2 last p rest hclose ih => apply ih.cons
  | case3 last p rest hclose ih => apply ih.cons_cons

/-- Consecutive points that are kept are not close. -/
theorem isChain_isClose_dropRepeats (last : Point) (ps : List Point) :
  (last :: dropRepeats last ps).IsChain fun p q => p.isClose q = false
  := by
  fun_induction dropRepeats last ps with
  | case1 last => apply List.isChain_singleton
  | case2 last p rest hclose ih => apply ih
  | case3 last p rest hclose ih =>
    exact List.isChain_cons_cons.mpr ⟨Bool.eq_false_iff.mpr hclose, ih⟩

/-- The last point is kept, unless it is close to the last one that is. -/
theorem exists_getLast?_dropRepeats (h : (last :: ps).getLast? = some p) :
  ∃ q, (last :: dropRepeats last ps).getLast? = some q ∧ (q = p ∨ q.isClose p = true)
  := by
  fun_induction dropRepeats last ps with
  | case1 last => exact ⟨p, h, Or.inl rfl⟩
  | case2 last q rest hclose ih =>
    cases rest with
    | nil =>
      obtain rfl := Option.some.inj h
      exact ⟨last, rfl, Or.inr hclose⟩
    | cons next others => apply ih h
  | case3 last q rest hclose ih =>
    rw [List.getLast?_cons_cons] at h ⊢
    apply ih h

/-- What holds of the legs, and of a leg with the one before it when that is no longer than the
tolerance, holds of the legs between the points that are kept. -/
theorem isChain_dropRepeats (hleg : ∀ p q, R p q → S p q)
    (hclose : ∀ p q r, p.isClose q = true → S p q → R q r → S p r)
    (h : (last :: ps).IsChain R) :
  (last :: dropRepeats last ps).IsChain S
  := by
  obtain ⟨hhead, hrest⟩ := List.isChain_cons.mp h
  replace hhead : ∀ p ∈ ps.head?, S last p := fun p hp => hleg last p (hhead p hp)
  clear h
  -- The leg from the last point that was kept satisfies `S`, the legs that follow satisfy `R`.
  induction ps generalizing last with
  | nil => apply List.isChain_singleton
  | cons p rest ih =>
    have hp : S last p := hhead p rfl
    obtain ⟨hnext, hothers⟩ := List.isChain_cons.mp hrest
    rw [dropRepeats]
    split_ifs with hlast
    · apply ih hothers
      intro q hq
      apply hclose last p q hlast hp (hnext q hq)
    · apply List.isChain_cons_cons.mpr ⟨hp, _⟩
      apply ih hothers
      intro q hq
      apply hleg p q (hnext q hq)

/-! ### Without the middle of straight runs -/

/-- The last point is never dropped as a middle. -/
theorem getLast?_dropMiddles (last : Point) (ps : List Point) :
  (last :: dropMiddles last ps).getLast? = (last :: ps).getLast?
  := by
  fun_induction dropMiddles last ps with
  | case1 last => rfl
  | case2 last p => rfl
  | case3 last p next rest hrun ih =>
    rw [ih, List.getLast?_cons_cons, List.getLast?_cons_cons, List.getLast?_cons_cons]
  | case4 last p next rest hrun ih =>
    rw [List.getLast?_cons_cons, ih]
    exact List.getLast?_cons_cons.symm

/-- What holds of the legs, and of a straight run when it holds of its beginning and its last leg,
holds of the legs between the points that are kept. -/
theorem isChain_dropMiddles (hleg : ∀ p q, R p q → S p q)
    (hstraight : ∀ p q r, [p, q, r].Sublist (last :: ps) → isStraight p q r = true → S p q → R q r →
      S p r)
    (h : (last :: ps).IsChain R) :
  (last :: dropMiddles last ps).IsChain S
  := by
  obtain ⟨hhead, hrest⟩ := List.isChain_cons.mp h
  replace hhead : ∀ p ∈ ps.head?, S last p := fun p hp => hleg last p (hhead p hp)
  clear h
  -- Again, only the leg from the last point that was kept need not be a leg of the polyline.
  fun_induction dropMiddles last ps with
  | case1 last => apply List.isChain_singleton
  | case2 last p => exact List.isChain_pair.mpr (hhead p rfl)
  | case3 last p next rest hrun ih =>
    obtain ⟨hnext, hothers⟩ := List.isChain_cons_cons.mp hrest
    apply ih
    · intro x y z hsub
      apply hstraight x y z
      apply hsub.trans
      exact (List.sublist_cons_self p (next :: rest)).cons_cons last
    · apply hothers
    · intro q hq
      obtain rfl := Option.some.inj hq
      apply hstraight last p next _ hrun (hhead p rfl) hnext
      exact (((List.nil_sublist rest).cons_cons next).cons_cons p).cons_cons last
  | case4 last p next rest hrun ih =>
    obtain ⟨hnext, hothers⟩ := List.isChain_cons_cons.mp hrest
    apply List.isChain_cons_cons.mpr ⟨hhead p rfl, _⟩
    apply ih
    · intro x y z hsub
      apply hstraight x y z (hsub.cons last)
    · apply hothers
    · intro q hq
      obtain rfl := Option.some.inj hq
      apply hleg p next hnext

/-! ### Without both -/

/-- Simplifying keeps the first point. -/
theorem head?_simplify (ps : List Point) :
  (simplify ps).head? = ps.head?
  := by
  cases ps with
  | nil => rfl
  | cons p rest => rfl

/-- The last point of a polyline is the last one of the simplified polyline or close to it. -/
theorem exists_getLast?_simplify (h : ps.getLast? = some p) :
  ∃ q, (simplify ps).getLast? = some q ∧ (q = p ∨ q.isClose p = true)
  := by
  cases ps with
  | nil => contradiction
  | cons first rest =>
    rw [simplify, getLast?_dropMiddles]
    apply exists_getLast?_dropRepeats h

/-- What holds of the legs of a polyline, and of a run when it holds of its pieces, holds of the legs
of the simplified polyline. -/
theorem isChain_simplify
    (hclose : ∀ p q r, p.isClose q = true → R p q → R q r → R p r)
    (hstraight : ∀ p q r, isStraight p q r = true → R p q → R q r → R p r)
    (h : ps.IsChain R) :
  (simplify ps).IsChain R
  := by
  cases ps with
  | nil => apply h
  | cons p rest =>
    apply isChain_dropMiddles (fun _ _ h => h)
    · intro p q r _
      apply hstraight
    · apply isChain_dropRepeats (fun _ _ h => h) hclose h

end DiagramLayout.Polyline
