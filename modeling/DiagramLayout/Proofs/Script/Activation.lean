import DiagramLayout.Proofs.Catalog
import DiagramLayout.Proofs.Script.Reading
import Mathlib.Data.List.Perm.Basic
import Mathlib.Data.List.Count
import Mathlib.Tactic.Use

/-!
# The balance of activations

Behind any lines of a script, the activations that have ended and those that are still open have begun at
the commands to activate, once each. Every command to deactivate has ended an activation or has been
complained about. At the end of a script the open activations are ended at the last moment, so that each
activation belongs to one command to activate.
-/

namespace DiagramLayout

open scoped List

/-- The participant of a deactivation that meets no activation. -/
def Complaint.unmatched? : Complaint → Option String
  | unmatchedDeactivate _ participant => some participant
  | _ => none

/-- The participant of an activation that lasts to the end, with the moment at which it is ended. -/
def Complaint.lasting? : Complaint → Option (String × ℕ)
  | neverDeactivated participant moment => some (participant, moment)
  | _ => none

namespace SequenceDiagram

/-- The activations of a participant. -/
def activationsOf (d : SequenceDiagram) (participant : String) : List Activation :=
  d.activations.filter fun a => a.participant = participant

/-- The moments at which a command is given to a participant. -/
def moments (d : SequenceDiagram) (command : ActivationCommand) (participant : String) : List ℕ :=
  (d.commands.filter fun c => c.command = command ∧ c.participant = participant).map
    SequenceCommand.moment

/-- The participants of the activations with the moments at which they begin. -/
def begun (d : SequenceDiagram) : List (String × ℕ) :=
  d.activations.map fun a => (a.participant, a.start)

/-- The participants to which a command is given, with the moments at which it is. -/
def given (d : SequenceDiagram) (command : ActivationCommand) : List (String × ℕ) :=
  (d.commands.filter fun c => c.command = command).map fun c => (c.participant, c.moment)

/-- The activations are in balance with the commands, `ended` being those that a command has ended
and `complaints` what has been complained about. -/
structure IsBalanced (d : SequenceDiagram) (ended : List Activation) (complaints : List Complaint) :
    Prop where
  /-- The activations of a participant begin where it is activated. -/
  starts : ∀ participant, ((d.activationsOf participant).map Activation.start).Perm
    (d.moments .activate participant)
  /-- There are as many activations as commands to activate. -/
  length_activations : d.activations.length = d.commands.countP (·.command = .activate)
  /-- An activation ends behind its beginning and not behind the last message. -/
  ordered : ∀ a ∈ d.activations, a.start ≤ a.finish ∧ a.finish ≤ d.messages.length
  /-- An activation ends where its participant is deactivated or behind the last message. -/
  finish : ∀ a ∈ d.activations,
    a.finish ∈ d.moments .deactivate a.participant ∨ a.finish = d.messages.length
  /-- The activations that a command has ended stand in front. -/
  ended_prefix : ended <+: d.activations
  /-- What a command has ended is ended where the command is. -/
  ended_finish : ∀ a ∈ ended, a.finish ∈ d.moments .deactivate a.participant
  /-- The other activations are those that are complained about as lasting. -/
  lasting : (d.activations.drop ended.length).map (fun a => (a.participant, a.finish))
    = complaints.filterMap Complaint.lasting?
  /-- Each command to deactivate a participant has ended an activation or is complained about. -/
  deactivations : ∀ participant, (d.moments .deactivate participant).length
    = ended.countP (·.participant = participant)
      + (complaints.filterMap Complaint.unmatched?).count participant
  /-- Each command to deactivate has ended an activation or is complained about. -/
  length_deactivations : d.commands.countP (·.command = .deactivate)
    = ended.length + (complaints.filterMap Complaint.unmatched?).length

variable {d : SequenceDiagram}

/-- The moments of the commands to a participant are found among all commands that are given. -/
theorem moments_eq (command : ActivationCommand) (participant : String) :
  d.moments command participant
    = ((d.given command).filter fun c => c.1 = participant).map Prod.snd
  := by
  rw [moments, given, List.filter_map, List.map_map, List.filter_filter]
  congr 1
  apply List.filter_congr
  intro c _
  simp [and_comm]

theorem mem_moments_of_mem_given {command : ActivationCommand} {participant : String} {moment : ℕ}
    (h : (participant, moment) ∈ d.given command) :
  moment ∈ d.moments command participant
  := by
  rw [moments_eq, List.mem_map]
  exact ⟨(participant, moment), List.mem_filter.mpr ⟨h, decide_eq_true rfl⟩, rfl⟩

theorem length_given (command : ActivationCommand) :
  (d.given command).length = d.commands.countP (·.command = command)
  := by
  rw [given, List.length_map, List.countP_eq_length_filter]

/-- A command that is given comes last, at the present moment. -/
theorem given_give (command other : ActivationCommand) (participant : String) :
  (d.give command participant).given other
    = d.given other ++ if command = other then [(participant, d.moment)] else []
  := by
  rw [given, give, List.filter_append, List.map_append]
  congr 1
  split_ifs with h
  · simp [h]
  · simp [h]

/-! ### Keeping the balance -/

/-- The activations that have ended and the `pending` ones have begun at the commands to activate, and
the commands to deactivate have ended activations or belong to the participants in `unmatched`. -/
structure Accounts (d : SequenceDiagram) (pending : List (String × ℕ)) (unmatched : List String) :
    Prop where
  begun : (d.begun ++ pending).Perm (d.given .activate)
  pending_le : ∀ a ∈ pending, a.2 ≤ d.moment
  ended : ∀ a ∈ d.activations, a.start ≤ a.finish ∧ a.finish ≤ d.moment
    ∧ (a.participant, a.finish) ∈ d.given .deactivate
  deactivations : ((d.given .deactivate).map Prod.fst).Perm
    (d.activations.map Activation.participant ++ unmatched)

namespace Accounts

variable {pending others : List (String × ℕ)} {unmatched : List String} {participant : String}

/-- A message changes nothing of what is accounted for. -/
theorem send (h : d.Accounts pending unmatched) (sender receiver text : String) (isAsync : Bool) :
  (d.send sender receiver text isAsync).Accounts pending unmatched
  := by
  have hmoment : (d.send sender receiver text isAsync).moment = d.moment + 1 := by
    rw [SequenceDiagram.send, moment, List.length_append, List.length_singleton]
    rfl
  refine ⟨h.begun, ?_, ?_, h.deactivations⟩
  · intro a ha
    rw [hmoment]
    apply Nat.le_succ_of_le (h.pending_le a ha)
  · intro a ha
    obtain ⟨hstart, hfinish, hgiven⟩ := h.ended a ha
    rw [hmoment]
    exact ⟨hstart, Nat.le_succ_of_le hfinish, hgiven⟩

/-- A command to activate begins an activation. -/
theorem activate (h : d.Accounts pending unmatched)
    (hothers : others.Perm ((participant, d.moment) :: pending)) :
  (d.give .activate participant).Accounts others unmatched
  := by
  refine ⟨?_, ?_, ?_, ?_⟩
  · rw [given_give, if_pos rfl]
    calc
      _ ~ d.begun ++ (participant, d.moment) :: pending := hothers.append_left _
      _ ~ (participant, d.moment) :: (d.begun ++ pending) := List.perm_middle
      _ ~ (participant, d.moment) :: d.given .activate := h.begun.cons _
      _ ~ d.given .activate ++ [(participant, d.moment)] := (List.perm_append_singleton _ _).symm
  · intro a ha
    rcases List.mem_cons.mp (hothers.mem_iff.mp ha) with rfl | ha
    · apply Nat.le_refl
    · apply h.pending_le a ha
  · intro a ha
    obtain ⟨hstart, hfinish, hgiven⟩ := h.ended a ha
    refine ⟨hstart, hfinish, ?_⟩
    rw [given_give]
    apply List.mem_append_left _ hgiven
  · rw [given_give, if_neg nofun, List.append_nil]
    apply h.deactivations

/-- A command to deactivate ends an activation that is pending. -/
theorem deactivate (h : d.Accounts pending unmatched) {start : ℕ}
    (hothers : pending.Perm ((participant, start) :: others)) :
  ((d.give .deactivate participant).activateFrom participant start).Accounts others unmatched
  := by
  have hgiven : ((d.give .deactivate participant).activateFrom participant start).given .deactivate
      = d.given .deactivate ++ [(participant, d.moment)] := by
    change (d.give .deactivate participant).given .deactivate = _
    rw [given_give, if_pos rfl]
  refine ⟨?_, ?_, ?_, ?_⟩
  · change (d.activateFrom participant start).begun ++ others
      ~ (d.give .deactivate participant).given .activate
    rw [given_give, if_neg nofun, List.append_nil, SequenceDiagram.begun, activateFrom, List.map_append,
      List.append_assoc]
    apply (hothers.symm.append_left _).trans h.begun
  · intro a ha
    apply h.pending_le a (hothers.mem_iff.mpr (List.mem_cons_of_mem _ ha))
  · intro a ha
    rw [hgiven]
    rcases List.mem_append.mp ha with ha | ha
    · obtain ⟨hstart, hfinish, hmem⟩ := h.ended a ha
      exact ⟨hstart, hfinish, List.mem_append_left _ hmem⟩
    · obtain rfl := List.mem_singleton.mp ha
      exact ⟨h.pending_le _ (hothers.mem_iff.mpr List.mem_cons_self), Nat.le_refl _,
        List.mem_append_right _ List.mem_cons_self⟩
  · rw [hgiven, List.map_append, activateFrom, List.map_append, List.append_assoc]
    apply (h.deactivations.append_right _).trans
    rw [List.append_assoc]
    apply List.perm_append_comm.append_left

/-- A command to deactivate that meets no activation leaves its participant unmatched. -/
theorem reject (h : d.Accounts pending unmatched) (participant : String) :
  (d.give .deactivate participant).Accounts pending (unmatched ++ [participant])
  := by
  refine ⟨?_, h.pending_le, ?_, ?_⟩
  · rw [given_give, if_neg nofun, List.append_nil]
    apply h.begun
  · intro a ha
    obtain ⟨hstart, hfinish, hgiven⟩ := h.ended a ha
    refine ⟨hstart, hfinish, ?_⟩
    rw [given_give]
    apply List.mem_append_left _ hgiven
  · rw [given_give, if_pos rfl, List.map_append, ← List.append_assoc]
    apply h.deactivations.append_right

end Accounts

end SequenceDiagram

namespace Reading

variable {r : Reading}

/-! ### Pending activations -/

/-- The pending activations are those of one participant and the others, which stay when those of the
participant change. -/
theorem exists_pending_perm (r : Reading) (participant : String) :
  ∃ others, r.pending.Perm (((r.active.find? participant).getD []).map (Prod.mk participant) ++ others)
    ∧ ∀ starts, { r with active := r.active.put participant starts }.pending.Perm
      (starts.map (Prod.mk participant) ++ others)
  := by
  have hreverse : ∀ starts : List ℕ, (starts.reverse.map (Prod.mk participant)).Perm
      (starts.map (Prod.mk participant)) := fun starts => (List.reverse_perm starts).map _
  cases h : r.active.find? participant with
  | none =>
    refine ⟨r.pending, List.Perm.refl _, ?_⟩
    intro starts
    rw [pending, Catalog.entries_put_of_find?_eq_none h, List.flatMap_append, List.flatMap_singleton]
    apply List.perm_append_comm.trans ((hreverse starts).append_right _)
  | some old =>
    obtain ⟨front, back, hentries, hput⟩ := Catalog.exists_entries_put h
    have hpart : ∀ starts : List ℕ, ((front ++ (participant, starts) :: back).flatMap
        fun e => e.2.reverse.map (Prod.mk e.1)).Perm (starts.map (Prod.mk participant)
          ++ (front ++ back).flatMap fun e => e.2.reverse.map (Prod.mk e.1)) := by
      intro starts
      apply (List.perm_middle.flatMap_right _).trans
      rw [List.flatMap_cons]
      apply (hreverse starts).append_right
    use (front ++ back).flatMap fun e => e.2.reverse.map (Prod.mk e.1)
    constructor
    · rw [pending, hentries]
      apply hpart
    · intro starts
      rw [pending, hput]
      apply hpart

/-- An activation that begins is one more that is pending. -/
theorem pending_activate (participant : String) :
  (r.activate participant).pending.Perm ((participant, r.model.sequence.moment) :: r.pending)
  := by
  obtain ⟨others, hpending, hput⟩ := exists_pending_perm r participant
  apply (hput _).trans
  rw [List.map_cons, List.cons_append]
  apply hpending.symm.cons

/-- The last activation of a participant is one of those that are pending. -/
theorem pending_perm_of_find? {participant : String} {start : ℕ} {others : List ℕ}
    (h : r.active.find? participant = some (start :: others)) :
  r.pending.Perm
    ((participant, start) :: { r with active := r.active.put participant others }.pending)
  := by
  obtain ⟨rest, hpending, hput⟩ := exists_pending_perm r participant
  rw [h, Option.getD_some, List.map_cons, List.cons_append] at hpending
  apply hpending.trans ((hput others).symm.cons _)

/-! ### Lines -/

/-- The activations and commands read so far are accounted for. -/
def IsAccounted (r : Reading) : Prop :=
  r.model.sequence.Accounts r.pending (r.complaints.filterMap Complaint.unmatched?)

/-- Where nothing is read, nothing has to be accounted for. -/
theorem isAccounted_initial :
  initial.IsAccounted
  where
  begun := List.Perm.refl []
  pending_le := by
    intro a ha
    contradiction
  ended := by
    intro a ha
    contradiction
  deactivations := List.Perm.refl []

namespace IsAccounted

/-- A complaint that is not about a command to deactivate leaves the account as it is. -/
theorem complain (h : r.IsAccounted) {c : Complaint} (hc : c.unmatched? = none) :
  (r.complain c).IsAccounted
  := by
  rw [IsAccounted, Reading.complain, List.filterMap_append, List.filterMap_cons_none hc,
    List.filterMap_nil, List.append_nil]
  exact h

/-- A command to activate is accounted for by an activation that is pending. -/
theorem activate (h : r.IsAccounted) (participant : String) :
  ((r.adjustSequence (·.give .activate participant)).activate participant).IsAccounted
  := by
  apply SequenceDiagram.Accounts.activate h
  apply pending_activate (r := r.adjustSequence (·.give .activate participant))

/-- A command to deactivate is accounted for by an activation that it ends or by a complaint. -/
theorem deactivate (h : r.IsAccounted) (number : ℕ) (participant : String) :
  ((r.adjustSequence (·.give .deactivate participant)).deactivate number participant).IsAccounted
  := by
  rw [Reading.deactivate]
  split
  · rename_i start others hfind
    apply SequenceDiagram.Accounts.deactivate h
    apply pending_perm_of_find? (r := r) hfind
  · rw [IsAccounted, Reading.complain, List.filterMap_append]
    apply SequenceDiagram.Accounts.reject h

/-- Whatever a statement does is accounted for. -/
theorem perform (h : r.IsAccounted) (number : ℕ) (statement : Statement) :
  (r.perform number statement).IsAccounted
  := by
  cases statement with
  | inlineClass name members => exact h
  | openClass name => exact h
  | relation kind left right => exact h
  | activation command participant =>
    cases command with
    | activate => apply h.activate
    | deactivate => apply h.deactivate
  | association actor useCase isAsync => exact h
  | transition source target label isAsync => exact h
  | message sender receiver text isAsync => apply SequenceDiagram.Accounts.send h

/-- The lines of a class body leave the account as it is. -/
theorem performBody (h : r.IsAccounted) (name : String) (line : BodyLine) :
  (r.performBody name line).IsAccounted
  := by
  cases line with
  | member text => exact h
  | last text => exact h

end IsAccounted

/-- Whatever lines are read, activations and commands are accounted for. -/
theorem isAccounted_readFrom (number : ℕ) (lines : List (List Char)) :
  (initial.readFrom number lines).IsAccounted
  := by
  apply readFrom_preserves number lines
  · intro r name line h _
    apply h.performBody
  · intro r number line statement h _ _
    apply h.perform
  · intro r number text h
    apply h.complain rfl
  · apply isAccounted_initial

/-- No activation is complained about as lasting before the end of the script. -/
theorem lasting_readFrom (number : ℕ) (lines : List (List Char)) :
  (initial.readFrom number lines).complaints.filterMap Complaint.lasting? = []
  := by
  have hcomplain : ∀ (r : Reading) (c : Complaint), c.lasting? = none →
      r.complaints.filterMap Complaint.lasting? = [] →
      (r.complain c).complaints.filterMap Complaint.lasting? = [] := by
    intro r c hc h
    rw [complain, List.filterMap_append, h, List.filterMap_cons_none hc]
    rfl
  apply readFrom_preserves (P := fun r => r.complaints.filterMap Complaint.lasting? = [])
  · intro r name line h _
    cases line with
    | member text => exact h
    | last text => exact h
  · intro r number line statement h _ _
    cases statement with
    | activation command participant =>
      cases command with
      | activate => exact h
      | deactivate =>
        dsimp only [perform, deactivate]
        split
        · exact h
        · apply hcomplain _ _ rfl h
    | _ => exact h
  · intro r number text h
    apply hcomplain r _ rfl h
  · rfl

end Reading

namespace SequenceDiagram

variable {d : SequenceDiagram} {pending : List (String × ℕ)} {unmatched : List String}
  {complaints : List Complaint}

/-! ### The end of a script -/

/-- What activations are apart from their ids, when those that are pending are ended as well. -/
theorem map_activations_foldl {α : Type} (f : String → ℕ → ℕ → α) :
  (pending.foldl (fun d a => d.activateFrom a.1 a.2) d).activations.map
      (fun a => f a.participant a.start a.finish)
    = d.activations.map (fun a => f a.participant a.start a.finish)
      ++ pending.map fun a => f a.1 a.2 d.moment
  := by
  induction pending generalizing d with
  | nil => rw [List.foldl_nil, List.map_nil, List.append_nil]
  | cons a rest ih =>
    rw [List.foldl_cons, ih, activateFrom, List.map_append, List.append_assoc]
    rfl

/-- The activations at the end are those before and the pending ones, which end at the last
moment. -/
theorem mem_activations_foldl {a : Activation}
    (h : a ∈ (pending.foldl (fun d a => d.activateFrom a.1 a.2) d).activations) :
  a ∈ d.activations ∨ (a.participant, a.start) ∈ pending ∧ a.finish = d.moment
  := by
  rw [Reading.foldl_activateFrom, List.mem_append, List.mem_mapIdx] at h
  apply h.imp_right
  rintro ⟨i, hi, rfl⟩
  exact ⟨List.getElem_mem hi, rfl⟩

/-- The pending activations have begun behind those that ended before. -/
theorem begun_foldl :
  (pending.foldl (fun d a => d.activateFrom a.1 a.2) d).begun = d.begun ++ pending
  := by
  rw [begun, map_activations_foldl fun participant start _ => (participant, start)]
  exact congrArg (d.begun ++ ·) (List.map_id pending)

theorem commands_foldl :
  (pending.foldl (fun d a => d.activateFrom a.1 a.2) d).commands = d.commands
  := by
  rw [Reading.foldl_activateFrom]

theorem moments_foldl (command : ActivationCommand) (participant : String) :
  (pending.foldl (fun d a => d.activateFrom a.1 a.2) d).moments command participant
    = d.moments command participant
  := by
  rw [moments, commands_foldl, moments]

theorem length_messages_foldl :
  (pending.foldl (fun d a => d.activateFrom a.1 a.2) d).messages.length = d.moment
  := by
  rw [Reading.foldl_activateFrom, moment]

/-- An activation has ended at a moment of a command to deactivate. -/
theorem Accounts.mem_moments (h : d.Accounts pending unmatched) {a : Activation}
    (ha : a ∈ d.activations) :
  a.finish ∈ d.moments .deactivate a.participant
  := mem_moments_of_mem_given (h.ended a ha).2.2

/-- Each command to deactivate has ended an activation or is unmatched. -/
theorem Accounts.length_moments (h : d.Accounts pending unmatched) (participant : String) :
  (d.moments .deactivate participant).length
    = d.activations.countP (·.participant = participant) + unmatched.count participant
  := by
  have hcount := h.deactivations.count_eq participant
  rw [List.count_append, List.count_eq_countP, List.count_eq_countP, List.countP_map,
    List.countP_map] at hcount
  rw [moments_eq, List.length_map, ← List.countP_eq_length_filter]
  exact hcount

/-- When the pending activations are ended and complained about, the balance is complete. -/
theorem isBalanced_of_accounts (h : d.Accounts pending unmatched)
    (hunmatched : complaints.filterMap Complaint.unmatched? = unmatched)
    (hlasting : complaints.filterMap Complaint.lasting? = pending.map fun a => (a.1, d.moment)) :
  (pending.foldl (fun d a => d.activateFrom a.1 a.2) d).IsBalanced d.activations complaints
  := by
  -- With the pending ones, the activations have begun at the commands to activate.
  have hbegun : (pending.foldl (fun d a => d.activateFrom a.1 a.2) d).begun ~ d.given .activate := by
    rw [begun_foldl]
    exact h.begun
  constructor
  case starts =>
    intro participant
    have hstarts := (hbegun.filter fun c => c.1 = participant).map Prod.snd
    rw [moments_foldl, moments_eq]
    convert hstarts using 1
    rw [begun, List.filter_map, List.map_map]
    rfl
  case length_activations =>
    rw [commands_foldl, ← length_given, ← hbegun.length_eq, begun, List.length_map]
  case ordered =>
    intro a ha
    rw [length_messages_foldl]
    -- The pending activations end at the last moment.
    rcases mem_activations_foldl ha with ha | ⟨ha, hfinish⟩
    · obtain ⟨hstart, hle, -⟩ := h.ended a ha
      exact ⟨hstart, hle⟩
    · rw [hfinish]
      exact ⟨h.pending_le _ ha, Nat.le_refl _⟩
  case finish =>
    intro a ha
    rw [moments_foldl, length_messages_foldl]
    rcases mem_activations_foldl ha with ha | ⟨-, hfinish⟩
    · left
      apply h.mem_moments ha
    · right
      exact hfinish
  case ended_prefix =>
    rw [Reading.foldl_activateFrom]
    apply List.prefix_append
  case ended_finish =>
    intro a ha
    rw [moments_foldl]
    apply h.mem_moments ha
  case lasting =>
    rw [List.map_drop, map_activations_foldl fun participant _ finish => (participant, finish),
      hlasting]
    apply List.drop_left'
    rw [List.length_map]
  case deactivations =>
    intro participant
    rw [moments_foldl, h.length_moments, hunmatched]
  case length_deactivations =>
    rw [commands_foldl, ← length_given, hunmatched]
    have hlength := h.deactivations.length_eq
    rw [List.length_append, List.length_map, List.length_map] at hlength
    exact hlength

end SequenceDiagram

namespace Reading

/-- The activations that commands of a text have ended. -/
def endedActivations (text : String) : List Activation :=
  (initial.readFrom 1 (Script.lines text.toList)).model.sequence.activations

/-- In every text the activations are in balance with the commands. -/
theorem ofText_isBalanced (text : String) :
  (ofText text).model.sequence.IsBalanced (endedActivations text) (ofText text).complaints
  := by
  have haccounted := isAccounted_readFrom 1 (Script.lines text.toList)
  have hlasting := lasting_readFrom 1 (Script.lines text.toList)
  rw [ofText, finish_eq]
  apply SequenceDiagram.isBalanced_of_accounts haccounted
  · rw [List.filterMap_append, List.filterMap_append, List.filterMap_map, List.filterMap_map]
    simp [Function.comp_def, Complaint.unmatched?]
  · rw [List.filterMap_append, List.filterMap_append, List.filterMap_map, List.filterMap_map]
    simp [Function.comp_def, Complaint.lasting?, hlasting]

/-- The activation that began last ends first, and one that is not ended lasts to the end. -/
example :
  (ofText ("activate A\nA -> B: one\nactivate A\nB -> A: two\n"
    ++ "deactivate A\nA -> B: three")).model.sequence.activations
    = [⟨"activation-1", "A", 1, 2⟩, ⟨"activation-2", "A", 0, 3⟩]
  := by
  decide

end Reading

end DiagramLayout
