import DiagramLayout.Proofs.Scene.Class.Nodes

/-!
# The hierarchy of a class diagram

Where inheritances form no cycle, every class stands as many levels below the roots as the longest
chain of inheritances above it asks for. Drawn with the standard settings, the classes of a level begin
at one height, and every heir begins below all of its parents with the gap between them.
-/

namespace DiagramLayout

open Inheritance Single

/-- The level of a class in the hierarchy of the diagram. -/
def ClassDiagram.levelOf? (d : ClassDiagram) (name : String) : Option ℕ :=
  d.levels?.bind fun levels => levels.find? name

/-- Every class has a level: the length of the longest chain of inheritances down to it, which is one
more than the deepest level of its parents, and 0 without parents. -/
structure ClassDiagram.HasLongestLevels (d : ClassDiagram) : Prop where
  longest : ∀ name ∈ d.classes.keys, ∃ level, d.levelOf? name = some level
    ∧ IsGreatest (d.chainLengths name) level
  deepest : ∀ name ∈ d.classes.keys, d.levelOf? name
    = some (((parentsOf d.inheritances name).map fun parent =>
        (d.levelOf? parent).getD 0 + 1).foldr max 0)

/-- The boxes of one level begin at one height, and an heir begins below the end of its parent by the
gap between levels at least. -/
structure Scene.StandsByLevel (s : Scene) (d : ClassDiagram) (gap : Float32) : Prop where
  aligned : ∀ a ∈ d.classes.keys, ∀ b ∈ d.classes.keys, d.levelOf? a = d.levelOf? b →
    ∃ m n, s.nodes.find? a = some m ∧ s.nodes.find? b = some n ∧ m.box.y = n.box.y
  below : ∀ i ∈ d.inheritances, ∃ parent heir, s.nodes.find? i.parent = some parent
    ∧ s.nodes.find? i.heir = some heir ∧ value parent.box.bottom + value gap ≤ value heir.box.y

namespace ClassDiagram

variable {d : ClassDiagram} {levels : Catalog ℕ} {i : Inheritance} {name : String} {m n : ℕ}

/-! ### Levels -/

/-- Without cycles the level of a class is the length of its longest chain. -/
theorem exists_levelOf? (hacyclic : IsAcyclic d.inheritances) (hname : name ∈ d.classes.keys) :
  ∃ level, d.levelOf? name = some level ∧ IsGreatest (d.chainLengths name) level
  := by
  obtain ⟨levels, hlevels, hgreatest⟩ := exists_levels hacyclic (List.ne_nil_of_mem hname)
  obtain ⟨level, hlevel⟩ := Catalog.exists_find?_iff.mpr ((mem_keys_levels hlevels).mpr hname)
  refine ⟨level, ?_, (hgreatest name level).mp hlevel⟩
  rw [levelOf?, hlevels, Option.bind_some, hlevel]

/-- An heir stands below each of its parents. -/
theorem exists_levelOf?_lt (hacyclic : IsAcyclic d.inheritances) (hi : i ∈ d.inheritances) :
  ∃ upper lower, d.levelOf? i.parent = some upper ∧ d.levelOf? i.heir = some lower ∧ upper < lower
  := by
  obtain ⟨-, hheir, hparent⟩ := mem_inheritances.mp hi
  obtain ⟨upper, hupper, ⟨root, hroot, hchain⟩, -⟩ := exists_levelOf? hacyclic hparent
  obtain ⟨lower, hlower, -, hgreatest⟩ := exists_levelOf? hacyclic hheir
  exact ⟨upper, lower, hupper, hlower, hgreatest ⟨root, hroot, hchain.step hi⟩⟩

/-- Without cycles the levels are lengths of longest chains. -/
theorem hasLongestLevels_of_isAcyclic (hacyclic : IsAcyclic d.inheritances) :
  d.HasLongestLevels
  := by
  constructor
  case longest => exact fun name => exists_levelOf? hacyclic
  case deepest =>
    intro name hname
    obtain ⟨level, hlevel, ⟨root, hroot, hchain⟩, hgreatest⟩ := exists_levelOf? hacyclic hname
    rw [hlevel, Option.some.injEq]
    apply le_antisymm
    · -- The last parent on the longest chain is deep enough.
      cases hchain with
      | refl => apply Nat.zero_le
      | @step n parent _ hchain hi =>
        have hparent := (d.relatesOnly_inheritances _ hi).2
        obtain ⟨upper, hupper, -, hle⟩ := exists_levelOf? hacyclic hparent
        apply List.le_max_of_le' 0 (List.mem_map_of_mem (mem_parentsOf.mpr hi))
        rw [hupper, Option.getD_some]
        apply Nat.succ_le_succ (hle ⟨root, hroot, hchain⟩)
    · apply List.max_le_of_forall_le
      intro n hn
      obtain ⟨parent, hparent, rfl⟩ := List.mem_map.mp hn
      obtain ⟨upper, lower, hupper, hlower, hlt⟩ :=
        exists_levelOf?_lt hacyclic (mem_parentsOf.mp hparent)
      rw [hlevel, Option.some.injEq] at hlower
      rw [hupper, Option.getD_some, hlower]
      exact hlt

/-! ### Places -/

/-- The places of a hierarchy follow the levels. -/
theorem isPlacement_of_levels (hinherits : d.hasInheritance = true) (hd : d.IsModerate)
    (hlevels : d.levels? = some levels) :
  d.IsPlacement 120 (IsBeside levels) (IsAbove levels) (d.places .standard)
  := by
  have hrows : d.hierarchy? = some (arranged d.inheritances [] (d.byLevel levels)) := by
    rw [hierarchy?, if_pos hinherits, hlevels, Option.map_some]
  obtain ⟨levels', hlevels', hlevelled⟩ := isLevelled_hierarchy hrows
  rw [hlevels, Option.some.injEq] at hlevels'
  subst hlevels'
  rw [places, hrows]
  apply isPlacement_hierarchy hd hlevelled

theorem value_verticalGap :
  value ClassSettings.standard.verticalGap = 120
  := by
  have hgap : IsWhole ClassSettings.standard.verticalGap (120 : ℕ) :=
    isWhole_ofNat (n := 120) (by norm_num)
  rw [hgap.value_eq]
  norm_num

theorem IsBeside.find?_eq {a b : String} (h : IsBeside levels a b) :
  levels.find? a = levels.find? b
  := by
  obtain ⟨level, ha, hb⟩ := h
  rw [ha, hb]

/-- Classes of which one stands above the other are on different levels. -/
theorem IsAbove.find?_ne {a b : String} (h : IsAbove levels a b) :
  levels.find? a ≠ levels.find? b
  := by
  obtain ⟨m, n, ha, hb, hlt⟩ := h
  rw [ha, hb, Ne, Option.some.injEq]
  apply hlt.ne

/-- A class that stands above another is on the lesser level. -/
theorem IsAbove.lt {a b : String} (h : IsAbove levels a b) (ha : levels.find? a = some m)
    (hb : levels.find? b = some n) :
  m < n
  := by
  obtain ⟨m', n', hm, hn, hlt⟩ := h
  rw [hm, Option.some.injEq] at ha
  rw [hn, Option.some.injEq] at hb
  rwa [← ha, ← hb]

/-- Places of one level are at one height. -/
theorem IsPlacement.y_eq {g : ℕ} {places : Places} {e f : String × Point}
    (h : d.IsPlacement g (IsBeside levels) (IsAbove levels) places) (he : e ∈ places)
    (hf : f ∈ places) (hne : e.1 ≠ f.1) (hlevel : levels.find? e.1 = levels.find? f.1) :
  e.2.y = f.2.y
  := by
  rcases h.stands_or he hf hne with (⟨-, hy, -⟩ | ⟨habove, -⟩) | (⟨-, hy, -⟩ | ⟨habove, -⟩)
  · exact hy
  · apply absurd hlevel habove.find?_ne
  · exact hy.symm
  · apply absurd hlevel.symm habove.find?_ne

/-- A place on a lower level is below the end of the box above. -/
theorem IsPlacement.lowerEnd_add_le {g : ℕ} {places : Places} {e f : String × Point}
    (h : d.IsPlacement g (IsBeside levels) (IsAbove levels) places) (he : e ∈ places)
    (hf : f ∈ places) (hm : levels.find? e.1 = some m) (hn : levels.find? f.1 = some n)
    (hlt : m < n) :
  value (d.lowerEnd e) + g ≤ value f.2.y
  := by
  have hlevel : levels.find? e.1 ≠ levels.find? f.1 := by
    rw [hm, hn, Ne, Option.some.injEq]
    apply hlt.ne
  rcases h.stands_or he hf (ne_of_apply_ne levels.find? hlevel) with
    (⟨hbeside, -⟩ | ⟨-, -, hle⟩) | (⟨hbeside, -⟩ | ⟨habove, -⟩)
  · apply absurd hbeside.find?_eq hlevel
  · exact hle
  · apply absurd hbeside.find?_eq hlevel.symm
  · apply absurd (habove.lt hn hm) hlt.not_gt

/-- Without cycles heirs stand below their parents. -/
theorem standsByLevel_of_isAcyclic (hinherits : d.hasInheritance = true)
    (hacyclic : IsAcyclic d.inheritances) (hd : d.IsModerate) :
  (d.scene .standard).StandsByLevel d ClassSettings.standard.verticalGap
  := by
  -- The level of a class is found in the levels that place it.
  have hlevelOf : ∀ {levels name}, d.levels? = some levels →
      d.levelOf? name = levels.find? name := by
    intro levels name h
    rw [levelOf?, h, Option.bind_some]
  constructor
  case aligned =>
    intro a ha b hb hlevel
    obtain ⟨levels, hlevels, -⟩ := exists_levels hacyclic (List.ne_nil_of_mem ha)
    have hplaces := isPlacement_of_levels hinherits hd hlevels
    obtain ⟨m, p, hm, hp, hmbox⟩ := exists_node hplaces ha
    obtain ⟨n, q, hn, hq, hnbox⟩ := exists_node hplaces hb
    refine ⟨m, n, hm, hn, ?_⟩
    rcases eq_or_ne a b with rfl | hne
    · rw [hm, Option.some.injEq] at hn
      rw [hn]
    · rw [hlevelOf hlevels, hlevelOf hlevels] at hlevel
      rw [hmbox, hnbox]
      apply hplaces.y_eq hp hq hne hlevel
  case below =>
    intro i hi
    obtain ⟨hheir, hparent⟩ := d.relatesOnly_inheritances i hi
    obtain ⟨levels, hlevels, -⟩ := exists_levels hacyclic (List.ne_nil_of_mem hheir)
    obtain ⟨upper, lower, hupper, hlower, hlt⟩ := exists_levelOf?_lt hacyclic hi
    have hplaces := isPlacement_of_levels hinherits hd hlevels
    obtain ⟨m, p, hm, hp, hmbox⟩ := exists_node hplaces hparent
    obtain ⟨n, q, hn, hq, hnbox⟩ := exists_node hplaces hheir
    refine ⟨m, n, hm, hn, ?_⟩
    rw [hlevelOf hlevels] at hupper hlower
    rw [hmbox, hnbox, value_verticalGap]
    apply hplaces.lowerEnd_add_le hp hq hupper hlower hlt

/-- In a diagram with inheritances, but without a cycle of them, the level of a class is the length of
the longest chain down to it, and boxes stand by their levels. -/
theorem hasLongestLevels_and_standsByLevel (hinherits : d.hasInheritance = true)
    (hacyclic : IsAcyclic d.inheritances) :
  d.HasLongestLevels
    ∧ (d.classes.size ≤ 10000 → d.memberCount ≤ 10000 →
      (d.scene .standard).StandsByLevel d ClassSettings.standard.verticalGap)
  := by
  use hasLongestLevels_of_isAcyclic hacyclic
  intro hsize hmembers
  apply standsByLevel_of_isAcyclic hinherits hacyclic
  exact ⟨by omega, hmembers⟩

/-- A class that inherits from two heirs of one class, and from this class itself. -/
def diamond : ClassDiagram :=
  ((((empty.relate .inheritance "D" "A").relate .inheritance "D" "B").relate
    .inheritance "D" "C").relate .inheritance "B" "A").relate .inheritance "C" "A"

/-- The diamond has no cycle. -/
theorem isAcyclic_diamond :
  IsAcyclic diamond.inheritances
  := by
  apply isAcyclic_of_lt fun name => ["A", "B", "C", "D"].idxOf name
  decide

/-- The diamond has the longest levels and stands by them. -/
theorem standsByLevel_diamond :
  diamond.hasInheritance = true ∧ IsAcyclic diamond.inheritances ∧ diamond.classes.size ≤ 10000
    ∧ diamond.memberCount ≤ 10000 ∧ diamond.HasLongestLevels
    ∧ (diamond.scene .standard).StandsByLevel diamond ClassSettings.standard.verticalGap
  := by
  have hinherits : diamond.hasInheritance = true := by decide
  have hsize : diamond.classes.size ≤ 10000 := by decide
  have hmembers : diamond.memberCount ≤ 10000 := by decide
  obtain ⟨hlevels, hstands⟩ := hasLongestLevels_and_standsByLevel hinherits isAcyclic_diamond
  exact ⟨hinherits, isAcyclic_diamond, hsize, hmembers, hlevels, hstands hsize hmembers⟩

end ClassDiagram

end DiagramLayout
