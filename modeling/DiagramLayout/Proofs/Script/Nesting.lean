import DiagramLayout.Proofs.Script.Activation

/-!
# The nesting of activations

An activation ends before those of its participant that began before it, so any two activations of one
participant are nested or apart. The moments at which the open activations of a participant began stand
in order, and none of them lies inside an activation of this participant that has ended.
-/

namespace DiagramLayout

/-- The interval of the activation contains that of the other one. -/
def Activation.Contains (a b : Activation) : Prop :=
  a.start ≤ b.start ∧ b.finish ≤ a.finish

instance (a b : Activation) : Decidable (a.Contains b) :=
  inferInstanceAs (Decidable (_ ∧ _))

/-- One interval contains the other, or one ends no later than the other starts. -/
def Activation.Nests (a b : Activation) : Prop :=
  (a.Contains b ∨ b.Contains a) ∨ a.finish ≤ b.start ∨ b.finish ≤ a.start

instance (a b : Activation) : Decidable (a.Nests b) :=
  inferInstanceAs (Decidable (_ ∨ _))

/-- Any two activations of one participant are nested or meet in at most an end point. -/
def SequenceDiagram.IsNested (d : SequenceDiagram) : Prop :=
  ∀ a ∈ d.activations, ∀ b ∈ d.activations, a.participant = b.participant → a.Nests b

instance (d : SequenceDiagram) : Decidable d.IsNested :=
  inferInstanceAs (Decidable (∀ a ∈ _, _))

namespace Activation

variable {a b : Activation}

/-- Being nested does not depend on the order of the two. -/
theorem Nests.symm (h : a.Nests b) :
  b.Nests a
  := h.imp Or.symm Or.symm

theorem Nests.refl (a : Activation) :
  a.Nests a
  := Or.inl (Or.inl ⟨Nat.le_refl _, Nat.le_refl _⟩)

/-- Of two activations that end at the same moment one contains the other. -/
theorem nests_of_finish_eq (h : a.finish = b.finish) :
  a.Nests b
  := by
  left
  apply (Nat.le_total a.start b.start).imp
  · exact fun hstart => ⟨hstart, Nat.le_of_eq h.symm⟩
  · exact fun hstart => ⟨hstart, Nat.le_of_eq h⟩

/-- An activation that has ended nests with one that ends later and began at no moment inside it. -/
theorem nests_of_apart (hfinish : a.finish ≤ b.finish)
    (hstart : b.start ≤ a.start ∨ a.finish ≤ b.start) :
  a.Nests b
  := by
  rcases hstart with hstart | hstart
  · exact Or.inl (Or.inr ⟨hstart, hfinish⟩)
  · exact Or.inr (Or.inl hstart)

end Activation

namespace SequenceDiagram

variable {d : SequenceDiagram} {stack others : String → List ℕ}

/-- The activations that have ended are nested, and so will be those that began at the moments in
`stack`, the last one of a participant first, whenever they end. -/
structure NestsWith (d : SequenceDiagram) (stack : String → List ℕ) : Prop where
  nested : d.IsNested
  /-- No activation ends behind the last message. -/
  ended : ∀ a ∈ d.activations, a.finish ≤ d.moment
  /-- No open activation began inside one that has ended. -/
  apart : ∀ a ∈ d.activations, ∀ start ∈ stack a.participant, start ≤ a.start ∨ a.finish ≤ start
  /-- The open activations of a participant stand in order. -/
  ordered : ∀ participant, (stack participant).Pairwise (· ≥ ·)
  begun : ∀ participant, ∀ start ∈ stack participant, start ≤ d.moment

/-- Without activations everything is nested. -/
theorem nestsWith_empty :
  empty.NestsWith fun _ => []
  where
  nested := nofun
  ended := nofun
  apart := nofun
  ordered := fun _ => List.Pairwise.nil
  begun := nofun

namespace NestsWith

/-- Messages only make the last moment later. -/
theorem send (h : d.NestsWith stack) (sender receiver text : String) (isAsync : Bool) :
  (d.send sender receiver text isAsync).NestsWith stack
  := by
  have hmoment : d.moment ≤ (d.send sender receiver text isAsync).moment := by
    rw [SequenceDiagram.send, moment, moment, List.length_append]
    apply Nat.le_add_right
  exact ⟨h.nested, fun a ha => Nat.le_trans (h.ended a ha) hmoment, h.apart, h.ordered,
    fun p start hstart => Nat.le_trans (h.begun p start hstart) hmoment⟩

/-- An activation that begins now begins behind all that have ended. -/
theorem activate (h : d.NestsWith stack) (participant : String)
    (hsame : others participant = d.moment :: stack participant)
    (hothers : ∀ p ≠ participant, others p = stack p) :
  d.NestsWith others
  := by
  refine ⟨h.nested, h.ended, ?_, ?_, ?_⟩
  · intro a ha start hstart
    by_cases hp : a.participant = participant
    · rw [hp, hsame, List.mem_cons, ← hp] at hstart
      rcases hstart with rfl | hstart
      · exact Or.inr (h.ended a ha)
      · exact h.apart a ha start hstart
    · rw [hothers _ hp] at hstart
      exact h.apart a ha start hstart
  · intro p
    by_cases hp : p = participant
    · rw [hp, hsame]
      exact (h.ordered participant).cons (h.begun participant)
    · rw [hothers p hp]
      exact h.ordered p
  · intro p start hstart
    by_cases hp : p = participant
    · rw [hp, hsame, List.mem_cons] at hstart
      rcases hstart with rfl | hstart
      · exact Nat.le_refl _
      · exact h.begun participant start hstart
    · rw [hothers p hp] at hstart
      exact h.begun p start hstart

/-- Ending the activation of a participant that began last nests it with all others. -/
theorem deactivate (h : d.NestsWith stack) (participant : String) {start : ℕ}
    (hsame : stack participant = start :: others participant)
    (hothers : ∀ p ≠ participant, others p = stack p) :
  (d.activateFrom participant start).NestsWith others
  := by
  have hsubset : ∀ p, ∀ s ∈ others p, s ∈ stack p := by
    intro p s hs
    by_cases hp : p = participant
    · subst hp
      rw [hsame]
      exact List.mem_cons_of_mem start hs
    · rw [← hothers p hp]
      exact hs
  have hstart : start ∈ stack participant := by
    rw [hsame]
    exact List.mem_cons_self
  have hordered := h.ordered participant
  rw [hsame, List.pairwise_cons] at hordered
  -- The activations that have ended so far lie within the new one or before it.
  have hnew : ∀ a ∈ d.activations, a.participant = participant →
      ∀ id, a.Nests ⟨id, participant, start, d.moment⟩ := by
    rintro a ha rfl id
    exact Activation.nests_of_apart (h.ended a ha) (h.apart a ha start hstart)
  refine ⟨?_, ?_, ?_, ?_, ?_⟩
  · intro a ha b hb heq
    rw [activateFrom, List.mem_append, List.mem_singleton] at ha hb
    rcases ha with ha | rfl
    · rcases hb with hb | rfl
      · exact h.nested a ha b hb heq
      · exact hnew a ha heq _
    · rcases hb with hb | rfl
      · exact (hnew b hb heq.symm _).symm
      · exact Activation.Nests.refl _
  · intro a ha
    rw [activateFrom, List.mem_append, List.mem_singleton] at ha
    rcases ha with ha | rfl
    · exact h.ended a ha
    · exact Nat.le_refl _
  · intro a ha s hs
    rw [activateFrom, List.mem_append, List.mem_singleton] at ha
    rcases ha with ha | rfl
    · exact h.apart a ha s (hsubset _ s hs)
    · exact Or.inl (hordered.1 s hs)
  · intro p
    by_cases hp : p = participant
    · rw [hp]
      exact hordered.2
    · rw [hothers p hp]
      exact h.ordered p
  · intro p s hs
    exact h.begun p s (hsubset p s hs)

/-- When all open activations are ended at once they are nested with each other as well. -/
theorem isNested_foldl {pending : List (String × ℕ)} (h : d.NestsWith stack)
    (hpending : ∀ a ∈ pending, a.2 ∈ stack a.1) :
  (pending.foldl (fun d a => d.activateFrom a.1 a.2) d).IsNested
  := by
  have hlast : ∀ a ∈ d.activations, ∀ b : Activation, (b.participant, b.start) ∈ pending →
      b.finish = d.moment → a.participant = b.participant → a.Nests b := by
    intro a ha b hb hfinish heq
    apply Activation.nests_of_apart
    · rw [hfinish]
      exact h.ended a ha
    · apply h.apart a ha
      rw [heq]
      exact hpending _ hb
  intro a ha b hb heq
  rcases mem_activations_foldl ha with ha | ⟨ha, hfinish⟩
  · rcases mem_activations_foldl hb with hb | ⟨hb, hfinish⟩
    · exact h.nested a ha b hb heq
    · exact hlast a ha b hb hfinish heq
  · rcases mem_activations_foldl hb with hb | ⟨hb, hfinish'⟩
    · exact (hlast b hb a ha hfinish heq.symm).symm
    · exact Activation.nests_of_finish_eq (hfinish.trans hfinish'.symm)

end NestsWith

end SequenceDiagram

namespace Reading

variable {r : Reading} {participant other : String}

/-- The moments at which the open activations of a participant began, the last one first. -/
def stack (r : Reading) (participant : String) : List ℕ :=
  (r.active.find? participant).getD []

/-- A pending activation is on the stack of its participant. -/
theorem mem_stack_of_mem_pending {a : String × ℕ} (h : a ∈ r.pending) :
  a.2 ∈ r.stack a.1
  := by
  obtain ⟨e, he, ha⟩ := List.mem_flatMap.mp h
  obtain ⟨start, hstart, rfl⟩ := List.mem_map.mp ha
  rw [stack, Catalog.find?_eq_some_iff.mpr he, Option.getD_some]
  exact List.mem_reverse.mp hstart

/-- The activations read so far are nested, whenever the open ones will end. -/
def Nests (r : Reading) : Prop :=
  r.model.sequence.NestsWith r.stack

/-- Before any line is read all activations are nested. -/
theorem nests_initial :
  initial.Nests
  := SequenceDiagram.nestsWith_empty

namespace Nests

/-- An activation that begins is nested with the others: it is the last to begin and the first to
end. -/
theorem activate (h : r.Nests) (participant : String) :
  (r.activate participant).Nests
  := by
  apply SequenceDiagram.NestsWith.activate h participant
  · rw [stack, Reading.activate, Catalog.find?_adjust, if_pos rfl]
    rfl
  · intro p hp
    rw [stack, Reading.activate, Catalog.find?_adjust, if_neg hp]
    rfl

/-- An activation that ends is the last that has begun, so it is nested with the others. -/
theorem deactivate (h : r.Nests) (number : ℕ) (participant : String) :
  (r.deactivate number participant).Nests
  := by
  rw [Reading.deactivate]
  split
  · rename_i start others hfind
    apply SequenceDiagram.NestsWith.deactivate h participant
    · change (r.active.find? participant).getD [] = start
        :: ((r.active.put participant others).find? participant).getD []
      rw [hfind, Catalog.find?_put, if_pos rfl]
      rfl
    · intro p hp
      change ((r.active.put participant others).find? p).getD [] = r.stack p
      rw [Catalog.find?_put, if_neg hp]
      rfl
  · exact h

/-- Whatever a statement does, the activations stay nested. -/
theorem perform (h : r.Nests) (number : ℕ) (statement : Statement) :
  (r.perform number statement).Nests
  := by
  cases statement with
  | activation command participant =>
    have hgiven : (r.adjustSequence (·.give command participant)).Nests :=
      ⟨h.nested, h.ended, h.apart, h.ordered, h.begun⟩
    cases command with
    | activate => exact hgiven.activate participant
    | deactivate => exact hgiven.deactivate number participant
  | message sender receiver text isAsync => exact SequenceDiagram.NestsWith.send h _ _ _ _
  | _ => exact h

/-- The lines of a class body leave the activations as they are. -/
theorem performBody (h : r.Nests) (name : String) (line : BodyLine) :
  (r.performBody name line).Nests
  := by
  cases line with
  | member text => exact h
  | last text => exact h

end Nests

/-- Whatever lines are read, the activations are nested. -/
theorem nests_readFrom (number : ℕ) (lines : List (List Char)) :
  (initial.readFrom number lines).Nests
  := by
  apply readFrom_preserves number lines
  · intro r name line h _
    exact h.performBody name line
  · intro r number line statement h _ _
    exact h.perform number statement
  · intro r number text h
    exact h
  · exact nests_initial

/-- In every text the activations of a participant are nested, those that last to the end included. -/
theorem isNested_ofText (text : String) :
  (ofText text).model.sequence.IsNested
  := by
  rw [ofText, finish_eq]
  apply (nests_readFrom 1 (Script.lines text.toList)).isNested_foldl
  intro a ha
  exact mem_stack_of_mem_pending ha

end Reading

end DiagramLayout
