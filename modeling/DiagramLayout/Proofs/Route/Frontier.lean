import DiagramLayout.Route.Frontier
import Mathlib.Tactic

/-!
# The order of a frontier

Merging, pushing and popping keep the entries of a frontier and the order in which no entry comes out
before the one above it, so the entry that comes out is the least one.
-/

namespace DiagramLayout

namespace Entry

variable {a b c : Entry}

/-- Entries are compared by rank, and those of one rank by ticket. -/
theorem atMost_iff :
  a.atMost b = true ↔ a.rank < b.rank ∨ a.rank = b.rank ∧ a.ticket ≤ b.ticket
  := by
  simp [atMost]

theorem atMost_refl (a : Entry) :
  a.atMost a = true
  := by
  rw [atMost_iff]
  omega

/-- The order of entries is transitive. -/
theorem atMost_trans (hab : a.atMost b = true) (hbc : b.atMost c = true) :
  a.atMost c = true
  := by
  rw [atMost_iff] at *
  omega

/-- The order of entries is total. -/
theorem atMost_of_not (h : ¬a.atMost b = true) :
  b.atMost a = true
  := by
  rw [atMost_iff] at *
  omega

end Entry

namespace Frontier

/-- The entry stands in the frontier. -/
def Holds (e : Entry) : Frontier → Prop
  | empty => False
  | branch _ top left right => e = top ∨ left.Holds e ∨ right.Holds e

instance : Membership Entry Frontier where
  mem f e := f.Holds e

/-- No entry comes out before one above it. -/
inductive Ordered : Frontier → Prop
  | empty : Ordered empty
  | branch {n : ℕ} {top : Entry} {left right : Frontier} :
      (∀ e ∈ left, top.atMost e = true) → (∀ e ∈ right, top.atMost e = true) →
      Ordered left → Ordered right → Ordered (branch n top left right)

variable {a b f rest : Frontier} {e top : Entry}

theorem not_mem_empty :
  e ∉ empty
  := by
  intro h
  exact h

theorem mem_branch {n : ℕ} :
  e ∈ branch n top a b ↔ e = top ∨ e ∈ a ∨ e ∈ b
  := Iff.rfl

/-- A join holds the entry on top and those of both frontiers. -/
theorem mem_join :
  e ∈ join top a b ↔ e = top ∨ e ∈ a ∨ e ∈ b
  := by
  rw [join]
  split
  · apply mem_branch
  · rw [mem_branch, or_comm (a := e ∈ b)]

/-- A merge holds the entries of both frontiers. -/
theorem mem_merge :
  e ∈ merge a b ↔ e ∈ a ∨ e ∈ b
  := by
  fun_induction merge a b with
  | case1 b => simp only [not_mem_empty, false_or]
  | case2 n top left right => simp only [not_mem_empty, or_false]
  | case3 n a al ar m b bl br h ih =>
    rw [mem_join, ih, mem_branch, mem_branch]
    tauto
  | case4 n a al ar m b bl br h ih =>
    rw [mem_join, ih, mem_branch, mem_branch]
    tauto

/-- A push adds its own entry. -/
theorem mem_push :
  e ∈ f.push top ↔ e = top ∨ e ∈ f
  := by
  rw [push]
  rw [mem_merge, mem_branch]
  simp only [not_mem_empty, or_false]

/-- What comes out and what is left are together what was there. -/
theorem mem_of_pop? (h : f.pop? = some (top, rest)) :
  e ∈ f ↔ e = top ∨ e ∈ rest
  := by
  cases f with
  | empty => simp [pop?] at h
  | branch n first left right =>
    simp only [pop?, Option.some.injEq, Prod.mk.injEq] at h
    obtain ⟨rfl, rfl⟩ := h
    rw [mem_branch, mem_merge]

/-- Only an empty frontier has nothing to take out. -/
theorem eq_empty_of_pop? (h : f.pop? = none) :
  f = empty
  := by
  cases f with
  | empty => rfl
  | branch n first left right => simp [pop?] at h

/-- A join is ordered when the entry on top comes before all others. -/
theorem Ordered.join (hleft : ∀ e ∈ a, top.atMost e = true) (hright : ∀ e ∈ b, top.atMost e = true)
    (ha : Ordered a) (hb : Ordered b) :
  Ordered (join top a b)
  := by
  rw [Frontier.join]
  split
  · apply Ordered.branch hleft hright ha hb
  · apply Ordered.branch hright hleft hb ha

/-- A merge of ordered frontiers is ordered. -/
theorem Ordered.merge (ha : Ordered a) (hb : Ordered b) :
  Ordered (merge a b)
  := by
  fun_induction Frontier.merge a b with
  | case1 b => apply hb
  | case2 n top left right => apply ha
  -- The least entry of both stays on top; what is below it is merged with the other frontier.
  | case3 n a al ar m b bl br h ih =>
    cases ha with
    | branch hal har hl hr =>
      apply Ordered.join hal _ hl (ih hr hb)
      intro e he
      rcases mem_merge.mp he with he | he
      · apply har e he
      · cases hb with
        | branch hbl hbr _ _ =>
          apply Entry.atMost_trans h
          rcases mem_branch.mp he with rfl | he | he
          · apply Entry.atMost_refl
          · apply hbl e he
          · apply hbr e he
  | case4 n a al ar m b bl br h ih =>
    cases hb with
    | branch hbl hbr hl hr =>
      apply Ordered.join hbl _ hl (ih ha hr)
      intro e he
      rcases mem_merge.mp he with he | he
      · cases ha with
        | branch hal har _ _ =>
          apply Entry.atMost_trans (Entry.atMost_of_not h)
          rcases mem_branch.mp he with rfl | he | he
          · apply Entry.atMost_refl
          · apply hal e he
          · apply har e he
      · apply hbr e he

/-- A push keeps a frontier ordered. -/
theorem Ordered.push (hf : Ordered f) (e : Entry) :
  Ordered (f.push e)
  := by
  apply Ordered.merge _ hf
  apply Ordered.branch
  · intro d hd
    apply absurd hd not_mem_empty
  · intro d hd
    apply absurd hd not_mem_empty
  · apply Ordered.empty
  · apply Ordered.empty

/-- The entry that comes out is the least one, and what is left is in order. -/
theorem Ordered.pop? (hf : Ordered f) (h : f.pop? = some (top, rest)) :
  Ordered rest ∧ ∀ e ∈ f, top.atMost e = true
  := by
  cases hf with
  | empty => simp [Frontier.pop?] at h
  | branch hleft hright hl hr =>
    simp only [Frontier.pop?, Option.some.injEq, Prod.mk.injEq] at h
    obtain ⟨rfl, rfl⟩ := h
    use hl.merge hr
    intro e he
    rcases mem_branch.mp he with rfl | he | he
    · apply Entry.atMost_refl
    · apply hleft e he
    · apply hright e he

end Frontier

end DiagramLayout
