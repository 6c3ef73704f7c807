import DiagramLayout.Proofs.Script.Line
import DiagramLayout.Script.Excerpt

/-!
# Reading excerpts

Every step of a reading acts within one kind of diagram: it adds to what has been read for this kind,
by what has been read for it, and leaves the rest as it is. So the excerpt of a script for a kind of
diagram is read as the script is, as far as this kind is concerned, and nothing else is read from it.
-/

namespace DiagramLayout

namespace Reading

variable {r : Reading} {kind other : DiagramKind}

/-- The step changes what has been read for one kind of diagram, by what has been read for it. -/
def ActsWithin (kind : DiagramKind) (f : Reading → Reading) : Prop :=
  ∀ r other, (f r).only other = if other = kind then f (r.only other) else r.only other

namespace ActsWithin

variable {f g : Reading → Reading}

/-- A step within a kind does the same to the excerpt of that kind. -/
theorem only_self (h : ActsWithin kind f) (r : Reading) :
  (f r).only kind = f (r.only kind)
  := by
  rw [h, if_pos rfl]

/-- A step within a kind does nothing to the excerpts of the others. -/
theorem only_of_ne (h : ActsWithin kind f) (r : Reading) (hne : other ≠ kind) :
  (f r).only other = r.only other
  := by
  rw [h, if_neg hne]

/-- Two steps within a kind, one after the other, are a step within it. -/
theorem comp (hg : ActsWithin kind g) (hf : ActsWithin kind f) :
  ActsWithin kind (g ∘ f)
  := by
  intro r other
  rw [Function.comp_apply, hg, hf]
  split_ifs
  · rfl
  · rfl

/-- Any number of steps within a kind are a step within it. -/
theorem foldl {α : Type} {step : Reading → α → Reading} (h : ∀ a, ActsWithin kind (step · a))
    (as : List α) :
  ActsWithin kind (as.foldl step ·)
  := by
  induction as with
  | nil =>
    intro r other
    exact (ite_self (r.only other)).symm
  | cons a rest ih => apply ih.comp (h a)

end ActsWithin

/-! ### Statements -/

/-- A complaint is in the excerpt of the kind that it is about, and in no other. -/
theorem only_complain (c : Complaint) :
  (r.complain c).only kind =
    if c.kind? = some kind then (r.only kind).complain c else r.only kind
  := by
  split_ifs with h
  · simp [only, complaintsOf, complain, h]
  · simp [only, complaintsOf, complain, h]

theorem actsWithin_complain {c : Complaint} (h : c.kind? = some kind) :
  ActsWithin kind (·.complain c)
  := by
  intro r other
  rw [only_complain, h]
  simp only [Option.some.injEq, eq_comm]

/-- Adjusting a class acts within class diagrams. -/
theorem actsWithin_adjustClass (name : String) (update : ClassNode → ClassNode) :
  ActsWithin .classes (·.adjustClass name update)
  := by
  intro r other
  cases other
  all_goals rfl

/-- Adjusting the sequence diagram acts within sequence diagrams. -/
theorem actsWithin_adjustSequence (update : SequenceDiagram → SequenceDiagram) :
  ActsWithin .sequence (·.adjustSequence update)
  := by
  intro r other
  cases other
  all_goals rfl

/-- Any change of the class that is open is a matter of class diagrams. -/
theorem actsWithin_openClass (name : Option String) :
  ActsWithin .classes fun r => { r with openClass := name }
  := by
  intro r other
  cases other
  all_goals rfl

/-- Any change of the activations that are open is a matter of sequence diagrams. -/
theorem actsWithin_active (update : Catalog (List ℕ) → Catalog (List ℕ)) :
  ActsWithin .sequence fun r => { r with active := update r.active }
  := by
  intro r other
  cases other
  all_goals rfl

/-- Beginning an activation acts within sequence diagrams. -/
theorem actsWithin_activate (participant : String) :
  ActsWithin .sequence (·.activate participant)
  := by
  intro r other
  cases other
  all_goals rfl

/-- Ending an activation acts within sequence diagrams, and so does the complaint that there is
none. -/
theorem actsWithin_deactivate (line : ℕ) (participant : String) :
  ActsWithin .sequence (·.deactivate line participant)
  := by
  intro r other
  split_ifs with hother
  · subst hother
    have hactive : (r.only .sequence).active = r.active := rfl
    dsimp only [deactivate]
    rw [hactive]
    split
    · rfl
    · apply (actsWithin_complain rfl).only_self
  · dsimp only [deactivate]
    split
    · rename_i start others _
      rw [(actsWithin_adjustSequence _).only_of_ne _ hother]
      apply (actsWithin_active (·.put participant others)).only_of_ne r hother
    · apply (actsWithin_complain rfl).only_of_ne r hother

/-- A statement adds to what has been read for its kind of diagram. -/
theorem actsWithin_perform (number : ℕ) (statement : Statement) :
  ActsWithin statement.kind (·.perform number statement)
  := by
  cases statement with
  | inlineClass name members => apply actsWithin_adjustClass
  | openClass name => apply (actsWithin_openClass (some name)).comp (actsWithin_adjustClass name id)
  | relation sort left right =>
    intro r other
    cases other
    all_goals rfl
  | activation command participant =>
    cases command with
    | activate => apply (actsWithin_activate participant).comp (actsWithin_adjustSequence _)
    | deactivate =>
      apply (actsWithin_deactivate number participant).comp (actsWithin_adjustSequence _)
  | association actor useCase isAsync =>
    intro r other
    cases other
    all_goals rfl
  | transition source target label isAsync =>
    intro r other
    cases other
    all_goals rfl
  | message sender receiver text isAsync => apply actsWithin_adjustSequence

/-- The lines of a class body act within class diagrams. -/
theorem actsWithin_performBody (name : String) (line : BodyLine) :
  ActsWithin .classes (·.performBody name line)
  := by
  cases line with
  | member text => apply actsWithin_adjustClass
  | last text => apply (actsWithin_openClass none).comp (actsWithin_adjustClass name _)

/-! ### Lines -/

theorem openClass_only_of_none (h : r.openClass = none) :
  (r.only kind).openClass = none
  := by
  rw [only, h, ite_self]

/-- Whether a class is open is known from the lines of a kind, where a line of this kind comes next. -/
theorem openClass_only_of_kindOf? {line : List Char} (h : r.kindOf? line = some kind) :
  (r.only kind).openClass = r.openClass
  := by
  cases hopen : r.openClass with
  | none => apply openClass_only_of_none hopen
  | some name =>
    dsimp only [kindOf?] at h
    rw [hopen] at h
    split_ifs at h
    obtain rfl := Option.some.inj h
    exact hopen

/-- A line that is read for a kind of diagram acts within this kind, and it does so behind any other
lines that leave the same class open. -/
theorem exists_actsWithin_of_kindOf? (number : ℕ) {line : List Char}
    (h : r.kindOf? line = some kind) :
  ∃ f, ActsWithin kind f ∧ ∀ s : Reading, s.openClass = r.openClass → s.step number line = f s
  := by
  dsimp only [kindOf?] at h
  split_ifs at h with hempty
  cases hopen : r.openClass with
  | some name =>
    rw [hopen] at h
    obtain rfl := Option.some.inj h
    refine ⟨_, actsWithin_performBody name (.ofLine (Script.normalize line)), ?_⟩
    intro s hs
    rw [step, if_neg hempty, readLine, hs]
  | none =>
    rw [hopen] at h
    obtain ⟨statement, hline, rfl⟩ := Option.map_eq_some_iff.mp h
    refine ⟨_, actsWithin_perform number statement, ?_⟩
    intro s hs
    simp only [step, if_neg hempty, readLine, hs, hline]

/-- A line that is read for no kind of diagram changes nothing that has been read for one. -/
theorem only_step_of_kindOf?_eq_none (number : ℕ) {line : List Char} (h : r.kindOf? line = none) :
  (r.step number line).only kind = r.only kind
  := by
  dsimp only [kindOf?] at h
  rw [step]
  split_ifs at h ⊢ with hempty
  · rfl
  · rw [readLine]
    cases hopen : r.openClass with
    | some name =>
      rw [hopen] at h
      contradiction
    | none =>
      rw [hopen] at h
      simp only [Option.map_eq_none_iff.mp h]
      apply only_complain

/-- The next line is read for a kind of diagram as it is read behind the lines of this kind, and as an
empty line when it is not of this kind. -/
theorem only_step (number : ℕ) (line : List Char) :
  (r.step number line).only kind
    = (r.only kind).step number (if r.kindOf? line = some kind then line else [])
  := by
  have hnil : (r.only kind).step number [] = r.only kind := rfl
  cases h : r.kindOf? line with
  | none => rw [only_step_of_kindOf?_eq_none number h, if_neg (Option.some_ne_none kind).symm, hnil]
  | some found =>
    obtain ⟨f, hf, hstep⟩ := exists_actsWithin_of_kindOf? number h
    rw [hstep r rfl, hf]
    split_ifs with hkind hsame hsame
    · subst hkind
      rw [hstep _ (openClass_only_of_kindOf? h)]
    · apply absurd (congrArg some hkind.symm) hsame
    · apply absurd (Option.some.inj hsame).symm hkind
    · rw [hnil]

/-- Reading lines and then taking the excerpt of a kind is taking the excerpt first and then reading
the lines that are left for this kind. -/
theorem only_readFrom (number : ℕ) (lines : List (List Char)) :
  (r.readFrom number lines).only kind
    = (r.only kind).readFrom number (r.excerpt kind number lines)
  := by
  induction lines generalizing r number with
  | nil => rfl
  | cons line rest ih => rw [readFrom, ih, only_step, excerpt, readFrom]

/-! ### The end of a script -/

/-- Ends all activations at the end of the script. -/
def closeActive (r : Reading) : Reading :=
  r.active.entries.foldl closeParticipant { r with active := .empty }

theorem closeClass_of_none (h : r.openClass = none) :
  closeClass r = r
  := by
  rw [closeClass, h]

theorem active_closeClass :
  (closeClass r).active = r.active
  := by
  rw [closeClass]
  split
  · rfl
  · rfl

theorem closeActive_of_empty (h : r.active = .empty) :
  closeActive r = r
  := by
  obtain ⟨model, active, openClass, complaints⟩ := r
  obtain rfl := h
  rfl

/-- Closing a class at the end of the script acts within class diagrams. -/
theorem actsWithin_closeClass :
  ActsWithin .classes closeClass
  := by
  intro r other
  cases hopen : r.openClass with
  | none =>
    rw [closeClass_of_none hopen, closeClass_of_none (openClass_only_of_none hopen), ite_self]
  | some name =>
    have hcomplain : ActsWithin .classes (·.complain (.unclosedClass name)) :=
      actsWithin_complain rfl
    have hclose : ∀ s : Reading, s.openClass = some name → closeClass s
        = ((fun s => { s with openClass := none }) ∘ (·.complain (.unclosedClass name))) s := by
      intro s hs
      rw [closeClass, hs]
      rfl
    rw [hclose r hopen, (actsWithin_openClass none).comp hcomplain r other]
    split_ifs with hother
    · subst hother
      exact (hclose (r.only .classes) hopen).symm
    · rfl

theorem actsWithin_closeActivation (participant : String) (start : ℕ) :
  ActsWithin .sequence (closeActivation participant · start)
  := by
  intro r other
  dsimp only [closeActivation]
  rw [actsWithin_adjustSequence, actsWithin_complain rfl]
  split_ifs with hother
  · subst hother
    rfl
  · rfl

/-- Ending the activations of a participant at the end of the script acts within sequence
diagrams. -/
theorem actsWithin_closeParticipant (entry : String × List ℕ) :
  ActsWithin .sequence (closeParticipant · entry)
  := by
  apply ActsWithin.foldl (actsWithin_closeActivation entry.1)

/-- Ending all activations at the end of the script acts within sequence diagrams. -/
theorem actsWithin_closeActive :
  ActsWithin .sequence closeActive
  := by
  intro r other
  dsimp only [closeActive]
  rw [ActsWithin.foldl actsWithin_closeParticipant, actsWithin_active fun _ => .empty]
  split_ifs with hother
  · subst hother
    rfl
  · rfl

/-- Finishing a reading and taking an excerpt may be done in any order. -/
theorem only_finish :
  r.finish.only kind = (r.only kind).finish
  := by
  have hclosed : kind ≠ .classes → closeClass (r.only kind) = r.only kind := by
    intro h
    apply closeClass_of_none
    rw [only, if_neg h]
  have hinactive : kind ≠ .sequence →
      closeActive (closeClass (r.only kind)) = closeClass (r.only kind) := by
    intro h
    apply closeActive_of_empty
    rw [active_closeClass, only, if_neg h]
  change (closeActive (closeClass r)).only kind = closeActive (closeClass (r.only kind))
  rw [actsWithin_closeActive, actsWithin_closeClass]
  split_ifs with hsequence hclass hclass
  · rfl
  · rw [hclosed hclass]
  · rw [hinactive hsequence]
  · rw [hinactive hsequence, hclosed hclass]

/-! ### Texts -/

theorem only_initial :
  initial.only kind = initial
  := by
  cases kind
  all_goals rfl

/-- An excerpt has as many lines as the script, so the complaints about them keep their numbers. -/
theorem length_excerpt (number : ℕ) (lines : List (List Char)) :
  (r.excerpt kind number lines).length = lines.length
  := by
  induction lines generalizing r number with
  | nil => rfl
  | cons line rest ih => rw [excerpt, List.length_cons, ih, List.length_cons]

/-- The lines of an excerpt are lines of the script or empty. -/
theorem eq_nil_or_mem_of_mem_excerpt {number : ℕ} {lines : List (List Char)} {line : List Char}
    (h : line ∈ r.excerpt kind number lines) :
  line = [] ∨ line ∈ lines
  := by
  induction lines generalizing r number with
  | nil => contradiction
  | cons first rest ih =>
    rw [excerpt, List.mem_cons] at h
    rcases h with rfl | h
    · split_ifs
      · right
        apply List.mem_cons_self
      · left
        rfl
    · apply (ih h).imp_right
      apply List.mem_cons_of_mem

end Reading

/-- The excerpt of a text has the lines that it is made of. -/
theorem Script.lines_excerpt (kind : DiagramKind) (text : String) :
  lines (excerpt kind text).toList = Reading.initial.excerpt kind 1 (lines text.toList)
  := by
  rw [excerpt, String.toList_ofList]
  apply lines_unlines
  · intro hnil
    apply lines_ne_nil text.toList
    rw [← List.length_eq_zero_iff, ← Reading.length_excerpt, hnil]
    rfl
  · intro line hline
    rcases Reading.eq_nil_or_mem_of_mem_excerpt hline with rfl | h
    · apply List.not_mem_nil
    · apply not_mem_of_mem_lines h

namespace Reading

/-- The excerpt of a text for a kind of diagram is read as this kind of diagram only, which is the same
as in the whole text, and the complaints are those about this kind. -/
theorem ofText_excerpt (text : String) (kind : DiagramKind) :
  (ofText (Script.excerpt kind text)).model = (ofText text).model.only kind
    ∧ (ofText (Script.excerpt kind text)).complaints = (ofText text).complaintsOf kind
  := by
  have hread : ofText (Script.excerpt kind text) = (ofText text).only kind := by
    rw [ofText, ofText, Script.lines_excerpt, only_finish, only_readFrom, only_initial]
  rw [hread]
  exact ⟨rfl, rfl⟩

/-- A message inside a class is a member of the class. -/
example :
  Script.excerpt .sequence "class A \x7b\nA -> B: in\n\x7d\nA -> B: out" = "\n\n\nA -> B: out"
  := by
  decide

end Reading

end DiagramLayout
