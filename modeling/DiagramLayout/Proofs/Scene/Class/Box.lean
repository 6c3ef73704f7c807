import DiagramLayout.Proofs.Catalog
import DiagramLayout.Proofs.Single.Greatest
import DiagramLayout.Scene.Class.Placement

/-!
# The sizes of class boxes

With the standard settings, the width and the height of a class box are whole numbers: the width is
rounded up and held to the limits, whatever the texts are, and the height counts rows.
-/

namespace DiagramLayout

open Single

/-- The standard settings of class boxes. -/
abbrev ClassSettings.standard : ClassSettings :=
  Settings.standard.classes

namespace ClassNode

variable {c : ClassNode}

/-- The height of the box with the standard settings. -/
def tallness (c : ClassNode) : ℕ :=
  56 + 24 * (max 1 c.attributes.length + max 1 c.methods.length)

/-- A box is not taller than its members and two placeholders need. -/
theorem tallness_le (c : ClassNode) :
  c.tallness ≤ 104 + 24 * c.memberCount
  := by
  rw [tallness, memberCount]
  omega

/-- The height of a part of a box is whole. -/
theorem isWhole_partHeight (members : List String) (h : members.length ≤ 100000) :
  IsWhole (ClassSettings.standard.partHeight members) (max 1 members.length * 24 : ℕ)
  := by
  have hcount : IsWhole (Float32.ofNat (max 1 members.length)) (max 1 members.length : ℕ) :=
    isWhole_ofNat (by omega)
  have hrow : IsWhole ClassSettings.standard.rowHeight 24 :=
    isWhole_ofNat (n := 24) (by norm_num)
  rw [Nat.cast_mul]
  apply hcount.mul hrow
  rw [abs_le]
  omega

/-- The height of a box is whole. -/
theorem isWhole_boxHeight (h : c.memberCount ≤ 100000) :
  IsWhole (ClassSettings.standard.boxHeight c) c.tallness
  := by
  rw [memberCount] at h
  have hheader : IsWhole ClassSettings.standard.headerHeight 48 :=
    isWhole_ofNat (n := 48) (by norm_num)
  have hfooter : IsWhole ClassSettings.standard.footerHeight 8 :=
    isWhole_ofNat (n := 8) (by norm_num)
  have hattributes := isWhole_partHeight c.attributes (by omega)
  have hmethods := isWhole_partHeight c.methods (by omega)
  have hsum := ((hheader.add hattributes (by rw [abs_le]; omega)).add hmethods
    (by rw [abs_le]; omega)).add hfooter (by rw [abs_le]; omega)
  rw [ClassSettings.boxHeight]
  convert hsum using 1
  rw [tallness]
  push_cast
  ring

/-- The width of a box is whole, between its two limits. -/
theorem exists_isWhole_boxWidth (c : ClassNode) :
  ∃ w, IsWhole (ClassSettings.standard.boxWidth c) w ∧ 250 ≤ w ∧ w ≤ 320
  := by
  have hmin : IsWhole ClassSettings.standard.minWidth 250 :=
    isWhole_ofNat (n := 250) (by norm_num)
  have hmax : IsWhole ClassSettings.standard.maxWidth 320 :=
    isWhole_ofNat (n := 320) (by norm_num)
  apply exists_isWhole_clamp hmin hmax (by norm_num) (by norm_num) (by norm_num)

end ClassNode

namespace ClassDiagram

variable {d : ClassDiagram} {name : String}

/-- The number of members of all classes. -/
def memberCount (d : ClassDiagram) : ℕ :=
  (d.classes.values.map ClassNode.memberCount).sum

/-- The diagram is small enough for all sums of lengths to be exact. -/
structure IsModerate (d : ClassDiagram) : Prop where
  size : d.classes.size ≤ 20002
  members : d.memberCount ≤ 10000

/-- The height of the box of a class with the standard settings. -/
def tallness (d : ClassDiagram) (name : String) : ℕ :=
  ((d.classes.find? name).map ClassNode.tallness).getD 0

theorem memberCount_le {c : ClassNode} (h : d.classes.find? name = some c) :
  c.memberCount ≤ d.memberCount
  := by
  have hmem : c ∈ d.classes.values := Catalog.mem_values_of_find? h
  apply List.le_sum_of_mem (List.mem_map_of_mem hmem)

theorem exists_isWhole_width (hname : name ∈ d.classes.keys) :
  ∃ w, IsWhole (d.sizeOf .standard name).width w ∧ 250 ≤ w ∧ w ≤ 320
  := by
  obtain ⟨c, hc⟩ := Catalog.exists_find?_iff.mpr hname
  rw [sizeOf, hc]
  apply c.exists_isWhole_boxWidth

theorem isWhole_height (hname : name ∈ d.classes.keys) (hd : d.memberCount ≤ 10000) :
  IsWhole (d.sizeOf .standard name).height (d.tallness name)
  := by
  obtain ⟨c, hc⟩ := Catalog.exists_find?_iff.mpr hname
  rw [sizeOf, tallness, hc]
  apply ClassNode.isWhole_boxHeight
  have hle := memberCount_le hc
  omega

/-- The boxes of all classes below each other, with a gap below each. -/
theorem sum_tallness_le (hd : d.IsModerate) :
  (d.classes.keys.map fun name => d.tallness name + 120).sum ≤ 5000000
  := by
  have hsize := hd.size
  have hmembers := hd.members
  have hle : (d.classes.keys.map fun name => d.tallness name + 120).sum
      ≤ (d.classes.entries.map fun e => 224 + 24 * e.2.memberCount).sum := by
    rw [Catalog.keys, List.map_map]
    apply List.sum_le_sum
    intro e he
    have hle := e.2.tallness_le
    rw [Function.comp_apply, tallness, Catalog.find?_eq_some_iff.mpr he, Option.map_some,
      Option.getD_some]
    omega
  have heq : (d.classes.entries.map fun e => 224 + 24 * e.2.memberCount).sum
      = 224 * d.classes.size + 24 * d.memberCount := by
    rw [List.sum_map_add, List.sum_map_mul_left, List.map_const', List.sum_replicate, smul_eq_mul,
      mul_comm, memberCount, Catalog.values, List.map_map, Catalog.size]
    rfl
  omega

end ClassDiagram

end DiagramLayout
