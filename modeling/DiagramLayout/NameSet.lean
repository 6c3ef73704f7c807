/-!
# Sets of names

A set of names keeps its members in the order in which they were first inserted. Inserting a member
again changes nothing.
-/

namespace DiagramLayout

/-- A list of distinct names. -/
structure NameSet where
  toList : List String
  nodup : toList.Nodup

namespace NameSet

/-- The set without members. -/
def empty : NameSet :=
  ⟨[], List.nodup_nil⟩

instance : Inhabited NameSet :=
  ⟨empty⟩

instance : Membership String NameSet :=
  ⟨fun s name => name ∈ s.toList⟩

instance (name : String) (s : NameSet) : Decidable (name ∈ s) :=
  inferInstanceAs (Decidable (name ∈ s.toList))

/-- The number of members. -/
def size (s : NameSet) : Nat :=
  s.toList.length

/-- Names stay distinct when a new one is appended. -/
theorem nodup_concat {names : List String} {name : String} (distinct : names.Nodup)
    (fresh : name ∉ names) :
  (names ++ [name]).Nodup
  := by
  simp only [List.nodup_append, List.nodup_cons, List.not_mem_nil, List.nodup_nil]
  exact ⟨distinct, by simp, fun a ha b hb h => fresh (by simp_all)⟩

/-- Adds a name behind the others, unless it is a member. -/
def insert (s : NameSet) (name : String) : NameSet :=
  if h : name ∈ s.toList then s else ⟨s.toList ++ [name], nodup_concat s.nodup h⟩

/-- The set of the names in a list, in order of first appearance. -/
def ofList (names : List String) : NameSet :=
  names.foldl insert empty

/-- Sets with the same names in the same order are equal. -/
@[ext]
theorem ext {s t : NameSet} (h : s.toList = t.toList) :
  s = t
  := by
  cases s
  cases t
  cases h
  rfl

@[simp]
theorem toList_empty :
  empty.toList = []
  := rfl

theorem toList_insert (s : NameSet) (name : String) :
  (s.insert name).toList = if name ∈ s.toList then s.toList else s.toList ++ [name]
  := by
  rw [insert]
  split <;> rfl

/-- Inserting a name adds that name and no other. -/
@[simp]
theorem mem_insert {s : NameSet} {name other : String} :
  other ∈ s.insert name ↔ other ∈ s ∨ other = name
  := by
  show other ∈ (s.insert name).toList ↔ other ∈ s.toList ∨ other = name
  rw [toList_insert]
  split
  · exact ⟨Or.inl, fun h => h.elim id (fun e => e ▸ ‹_›)⟩
  · simp

end NameSet

end DiagramLayout
