import DiagramLayout.Proofs.Route.Trail

/-!
# The costs of steps

With finite penalties that are not negative, no step has a negative cost, and steps cost no more
than the penalties of a step can add up to.
-/

namespace DiagramLayout

open Single

/-- A finite number that is not negative. -/
def IsPenalty (x : Float32) : Prop :=
  x.isFinite = true ∧ 0.0 ≤ x

instance : DecidablePred IsPenalty :=
  fun x => inferInstanceAs (Decidable (x.isFinite = true ∧ 0.0 ≤ x))

/-- All penalties are finite and not negative. -/
structure RouteTuning.HasPenalties (t : RouteTuning) : Prop where
  proximity : IsPenalty t.proximityPenalty
  turn : IsPenalty t.turnPenalty
  uturn : IsPenalty t.uturnPenalty
  startDirection : IsPenalty t.startDirectionPenalty

instance (t : RouteTuning) : Decidable t.HasPenalties :=
  decidable_of_iff (IsPenalty t.proximityPenalty ∧ IsPenalty t.turnPenalty
      ∧ IsPenalty t.uturnPenalty ∧ IsPenalty t.startDirectionPenalty)
    ⟨fun ⟨hproximity, hturn, huturn, hstart⟩ => ⟨hproximity, hturn, huturn, hstart⟩,
      fun h => ⟨h.proximity, h.turn, h.uturn, h.startDirection⟩⟩

/-! ### The cells around a cell -/

/-- The other cell is one of the at most eight cells around the cell. -/
def Cell.IsAround (c d : Cell) : Prop :=
  d ≠ c ∧ (d.col ≤ c.col + 1 ∧ c.col ≤ d.col + 1) ∧ d.row ≤ c.row + 1 ∧ c.row ≤ d.row + 1

instance (c d : Cell) : Decidable (c.IsAround d) :=
  inferInstanceAs (Decidable (_ ∧ _))

namespace Lattice

/-- The numbers beside one differ from it by at most one. -/
theorem mem_beside {m n : ℕ} :
  m ∈ beside n ↔ m ≤ n + 1 ∧ n ≤ m + 1
  := by
  rw [beside]
  split_ifs
  all_goals
    simp only [List.mem_cons, List.not_mem_nil, or_false]
    omega

theorem nodup_beside (n : ℕ) :
  (beside n).Nodup
  := by
  rw [beside]
  split_ifs
  all_goals
    simp only [List.nodup_cons, List.mem_cons, List.not_mem_nil, or_false, not_or, List.nodup_nil,
      not_false_eq_true, and_true]
    omega

/-- At most three numbers are beside a number, itself included. -/
theorem length_beside_le (n : ℕ) :
  (beside n).length ≤ 3
  := by
  rw [beside]
  split_ifs
  · norm_num
  · norm_num

/-- The cells that are listed around a cell are those of the grid. -/
theorem mem_around {l : Lattice} {c d : Cell} :
  d ∈ l.around c ↔ l.inBounds d = true ∧ c.IsAround d
  := by
  simp only [around, List.mem_filter, List.mem_flatMap, List.mem_map, mem_beside,
    Bool.and_eq_true, bne_iff_ne, Cell.IsAround]
  constructor
  · rintro ⟨⟨row, hrow, col, hcol, rfl⟩, hne, hin⟩
    exact ⟨hin, hne, hcol, hrow⟩
  · rintro ⟨hin, hne, hcol, hrow⟩
    exact ⟨⟨d.row, hrow, d.col, hcol, rfl⟩, hne, hin⟩

/-- No cell is counted twice around a cell. -/
theorem nodup_around (l : Lattice) (c : Cell) :
  (l.around c).Nodup
  := by
  apply List.Nodup.filter
  rw [List.nodup_flatMap]
  constructor
  · intro row _
    apply (nodup_beside c.col).map
    intro col col' heq
    exact congrArg Cell.col heq
  · apply (nodup_beside c.row).imp
    intro row row' hne
    rw [Function.onFun, List.disjoint_iff_ne]
    simp only [List.mem_map]
    rintro _ ⟨col, -, rfl⟩ _ ⟨col', -, rfl⟩ heq
    exact hne (congrArg Cell.row heq)

end Lattice

/-- A cell is crowded by no more than the cells beside it in three rows. -/
theorem Grid.crowding_le (g : Grid) (c : Cell) :
  g.crowding c ≤ 9
  := by
  have hcols := Lattice.length_beside_le c.col
  have hrows := Lattice.length_beside_le c.row
  calc g.crowding c ≤ (g.lattice.around c).length := List.countP_le_length
    _ ≤ ((Lattice.beside c.row).flatMap fun row =>
          (Lattice.beside c.col).map fun col => Cell.mk col row).length :=
        List.length_filter_le _ _
    _ = (Lattice.beside c.row).length * (Lattice.beside c.col).length := by
        simp [List.length_flatMap]
    _ ≤ 3 * 3 := Nat.mul_le_mul hrows hcols

/-- A surcharge that is not negative keeps a cost from being negative. -/
theorem nonneg_surcharge {x y : Float32} {b : Prop} [Decidable b] (hx : 0.0 ≤ x) (hy : 0.0 ≤ y) :
  0.0 ≤ if b then x + y else x
  := by
  split_ifs
  · apply nonneg_add hx hy
  · apply hx

theorem nonneg_one :
  (0.0 : Float32) ≤ 1.0
  := by
  decide

namespace Quest

variable {q : Quest} {p : Pose} {h : Heading} {c : Cell}

/-- What blocked cells around a cell cost is not negative. -/
theorem nonneg_crowding_mul (ht : q.tuning.HasPenalties) :
  0.0 ≤ Float32.ofNat (q.grid.crowding c) * q.tuning.proximityPenalty
  := by
  have hle := q.grid.crowding_le c
  obtain ⟨hfinite, hnonneg⟩ := ht.proximity
  apply nonneg_mul (value_ofNat (by omega)).1 (nonneg_ofNat _) (isRational_iff.mpr hfinite) hnonneg

/-- No step has a negative cost. -/
theorem nonneg_stepCost (ht : q.tuning.HasPenalties) :
  0.0 ≤ q.stepCost p h c
  := by
  apply nonneg_surcharge _ ht.startDirection.2
  apply nonneg_surcharge _ ht.uturn.2
  apply nonneg_surcharge _ ht.turn.2
  apply nonneg_add nonneg_one (nonneg_crowding_mul ht)

/-- Finite penalties that are not negative make a search steady. -/
theorem isSteady_of_hasPenalties (ht : q.tuning.HasPenalties) :
  q.IsSteady
  := by
  constructor
  · rintro ⟨target, step⟩ hmove
    obtain ⟨h, -, -, rfl⟩ := mem_moves.mp hmove
    apply infinite_lt_of_nonneg (nonneg_stepCost ht)
  · rintro p hp hne ⟨target, step⟩ hmove
    obtain ⟨h, -, -, rfl⟩ := mem_moves.mp hmove
    apply nonneg_stepCost ht

end Quest

/-! ### Bounds -/

/-- All penalties lie between zero and a million. -/
structure RouteTuning.HasModestPenalties (t : RouteTuning) : Prop where
  proximity : 0.0 ≤ t.proximityPenalty ∧ t.proximityPenalty ≤ 1e6
  turn : 0.0 ≤ t.turnPenalty ∧ t.turnPenalty ≤ 1e6
  uturn : 0.0 ≤ t.uturnPenalty ∧ t.uturnPenalty ≤ 1e6
  startDirection : 0.0 ≤ t.startDirectionPenalty ∧ t.startDirectionPenalty ≤ 1e6

theorem value_million :
  value 1e6 = (1000000 : ℕ)
  := by
  have hunpack : (1e6 : Float32).toModel.unpack
      = .finite .positive 16000000 (-4) (by norm_num) := by rfl
  rw [value, hunpack, exactValue_finite, signed]
  norm_num

theorem value_le_million {x : Float32} (h : x ≤ 1e6) :
  value x ≤ (1000000 : ℕ)
  := by
  rw [← value_million]
  apply (le_iff.mp h).2.2

/-- A penalty may be any number between zero and a million. -/
theorem isPenalty_of_le_million {x : Float32} (h : 0.0 ≤ x ∧ x ≤ 1e6) :
  IsPenalty x
  := by
  obtain ⟨hnumber, hnonneg⟩ := zero_le_iff.mp h.1
  constructor
  · apply isRational_iff.mp
    apply hnumber.isRational
    rw [abs_of_nonneg hnonneg]
    apply (value_le_million h.2).trans_lt
    norm_num
  · apply h.1

/-- Modest penalties are finite and not negative. -/
theorem RouteTuning.HasModestPenalties.hasPenalties {t : RouteTuning}
    (h : t.HasModestPenalties) :
  t.HasPenalties
  := by
  constructor
  · apply isPenalty_of_le_million h.proximity
  · apply isPenalty_of_le_million h.turn
  · apply isPenalty_of_le_million h.uturn
  · apply isPenalty_of_le_million h.startDirection

/-- A cost between zero and a natural number. -/
def CostsAtMost (n : ℕ) (x : Float32) : Prop :=
  0.0 ≤ x ∧ value x ≤ n

/-- A sum costs at most the sum of the bounds. -/
theorem CostsAtMost.add {m n : ℕ} {x y : Float32} (hx : CostsAtMost m x) (hy : CostsAtMost n y)
    (h : m + n ≤ 2 ^ 24) :
  CostsAtMost (m + n) (x + y)
  := by
  constructor
  · apply nonneg_add hx.1 hy.1
  · apply (isNearest_add_of_nonneg hx.1 hy.1).value_le _ h
    push_cast
    apply add_le_add hx.2 hy.2

theorem CostsAtMost.mono {m n : ℕ} {x : Float32} (hx : CostsAtMost m x) (h : m ≤ n) :
  CostsAtMost n x
  := by
  use hx.1
  apply hx.2.trans
  exact_mod_cast h

/-- A surcharge that may be charged counts with its bound. -/
theorem CostsAtMost.surcharge {m n : ℕ} {x y : Float32} {b : Prop} [Decidable b]
    (hx : CostsAtMost m x) (hy : CostsAtMost n y) (h : m + n ≤ 2 ^ 24) :
  CostsAtMost (m + n) (if b then x + y else x)
  := by
  split_ifs
  · apply hx.add hy h
  · apply hx.mono (Nat.le_add_right m n)

theorem costsAtMost_one :
  CostsAtMost 1 1.0
  := by
  have hunpack : (1.0 : Float32).toModel.unpack
      = .finite .positive (2 ^ 23) (-23) (by norm_num) := by rfl
  use nonneg_one
  rw [value, hunpack, exactValue_finite, signed]
  norm_num

/-- A step is less than half a unit in the last place of `2 ^ 48` and is lost when it is added. -/
theorem confined_two_pow_add_step :
  confined (2 ^ 48 + 12000001) = 2 ^ 48
  := by
  have hplace : lastPlace (2 ^ 48 + 12000001) = 25 := by
    apply lastPlace_eq (by norm_num) (by norm_num)
    · norm_num
    · right
      norm_num
  have hsignificand : (2 ^ 23 : ℤ) = toEven ((2 ^ 48 + 12000001) / 2 ^ (25 : ℤ)) := by
    apply eq_toEven
    · rw [abs_le]
      norm_num
    · intro h
      norm_num [abs_of_neg] at h
  have hround : rounded (2 ^ 48 + 12000001) = 2 ^ 48 := by
    rw [rounded, significand, hplace, ← hsignificand]
    norm_num
  rw [confined_of_abs_le, hround]
  rw [hround]
  norm_num

/-- Costs do not grow beyond `2 ^ 48`, however many steps are added. -/
theorem CostsAtMost.add_step {x y : Float32} (hx : CostsAtMost (2 ^ 48) x)
    (hy : CostsAtMost 12000001 y) :
  CostsAtMost (2 ^ 48) (x + y)
  := by
  use nonneg_add hx.1 hy.1
  have hsum : value x + value y ≤ 2 ^ 48 + 12000001 := by
    have hx' := hx.2
    have hy' := hy.2
    push_cast at hx' hy'
    linarith
  have hle := confined_mono hsum
  rw [confined_two_pow_add_step, ← (isNearest_add_of_nonneg hx.1 hy.1).value_eq] at hle
  exact_mod_cast hle

namespace Quest

variable {q : Quest} {p : Pose} {h : Heading} {c : Cell}

/-- Blocked cells around a cell cost at most nine times a million. -/
theorem costsAtMost_crowding_mul (ht : q.tuning.HasModestPenalties) :
  CostsAtMost 9000000 (Float32.ofNat (q.grid.crowding c) * q.tuning.proximityPenalty)
  := by
  have hle := q.grid.crowding_le c
  obtain ⟨hrational, hvalue⟩ := value_ofNat (show q.grid.crowding c ≤ 2 ^ 24 by omega)
  have hpenalty := isPenalty_of_le_million ht.proximity
  use nonneg_crowding_mul ht.hasPenalties
  apply (isNearest_mul hrational (isRational_iff.mpr hpenalty.1)).value_le _ (by norm_num)
  have hcrowding : (q.grid.crowding c : ℚ) ≤ 9 := by exact_mod_cast hle
  have hmillion := value_le_million ht.proximity.2
  have hnonneg := (zero_le_iff.mp hpenalty.2).2
  rw [hvalue]
  calc (q.grid.crowding c : ℚ) * value q.tuning.proximityPenalty
      ≤ 9 * ((1000000 : ℕ) : ℚ) := by gcongr
    _ = ((9000000 : ℕ) : ℚ) := by norm_num

/-- A step costs at most 12 million and one. -/
theorem costsAtMost_stepCost (ht : q.tuning.HasModestPenalties) :
  CostsAtMost 12000001 (q.stepCost p h c)
  := by
  have hplain := costsAtMost_one.add (costsAtMost_crowding_mul (c := c) ht) (by norm_num)
  have hturn : CostsAtMost 1000000 q.tuning.turnPenalty :=
    ⟨ht.turn.1, value_le_million ht.turn.2⟩
  have huturn : CostsAtMost 1000000 q.tuning.uturnPenalty :=
    ⟨ht.uturn.1, value_le_million ht.uturn.2⟩
  have hstart : CostsAtMost 1000000 q.tuning.startDirectionPenalty :=
    ⟨ht.startDirection.1, value_le_million ht.startDirection.2⟩
  apply CostsAtMost.surcharge _ hstart (by norm_num)
  apply CostsAtMost.surcharge _ huturn (by norm_num)
  apply CostsAtMost.surcharge hplain hturn (by norm_num)

end Quest

end DiagramLayout
