import DiagramLayout.Proofs.Script.Nesting
import Mathlib

/-!
# The complaints about a script

Which class is open and how many activations a participant has can be told from the lines alone, line by
line. A line is complained about if it says nothing outside of classes, or if it ends an activation of a
participant that has none. So the complaints about a script are those about its lines in their order,
then one about the class that is open behind the last line, and then one about each activation that is
left to the end.
-/

namespace DiagramLayout

/-! ### What is open -/

/-- What is open between two lines: a class, and how many activations of each participant. -/
structure Openness where
  openClass : Option String
  depth : String → ℕ

namespace Openness

/-- Nothing is open. -/
def initial : Openness :=
  ⟨none, fun _ => 0⟩

/-- What is open behind a statement. -/
def perform (o : Openness) : Statement → Openness
  | .openClass name => { o with openClass := some name }
  | .activation .activate participant =>
    { o with depth := Function.update o.depth participant (o.depth participant + 1) }
  | .activation .deactivate participant =>
    { o with depth := Function.update o.depth participant (o.depth participant - 1) }
  | _ => o

/-- What is open behind a line. -/
def after (o : Openness) (line : List Char) : Openness :=
  match o.openClass with
  | some _ => if '\x7d' ∈ Script.normalize line then { o with openClass := none } else o
  | none => (Statement.ofLine? (Script.normalize line)).elim o o.perform

/-- What is open behind some lines at the beginning of a script. -/
def behind (lines : List (List Char)) : Openness :=
  lines.foldl after initial

/-- The line in normal form has content but says nothing: no class is open, and no form of a statement
reads it. -/
structure IsUnreadable (o : Openness) (normal : List Char) : Prop where
  nonempty : normal ≠ []
  outside : o.openClass = none
  forms : ∀ form ∈ Script.forms, form normal = none

/-- The line in normal form deactivates a participant that has no activation. -/
structure IsUnmatched (o : Openness) (normal : List Char) (participant : String) : Prop where
  outside : o.openClass = none
  command : Statement.ofLine? normal = some (.activation .deactivate participant)
  depth : o.depth participant = 0

/-- What is to be complained about in a statement. -/
def objection? (o : Openness) (number : ℕ) : Statement → Option Complaint
  | .activation .deactivate participant =>
    if o.depth participant = 0 then some (.unmatchedDeactivate number participant) else none
  | _ => none

/-- What is to be complained about in a line. -/
def complaint? (o : Openness) (number : ℕ) (line : List Char) : Option Complaint :=
  if o.openClass ≠ none ∨ Script.normalize line = [] then none
  else
    (Statement.ofLine? (Script.normalize line)).elim
      (some (.unreadable number (String.ofList (Script.normalize line)))) (o.objection? number)

/-- What is to be complained about in lines, the first of which has the given number. -/
def complaints (o : Openness) (number : ℕ) : List (List Char) → List Complaint
  | [] => []
  | line :: rest => (o.complaint? number line).toList ++ (o.after line).complaints (number + 1) rest

end Openness

/-- The number of the line that a complaint is about. -/
def Complaint.line? : Complaint → Option ℕ
  | unreadable line _ => some line
  | unmatchedDeactivate line _ => some line
  | unclosedClass _ => none
  | neverDeactivated _ _ => none

/-- The complaints are those about lines of a script. They are about lines with content, of which they
tell the numbers, in order and at most one about each. Unreadable lines and unmatched commands are
complained about, and nothing else is. -/
structure Script.AreComplaints (lines : List (List Char)) (complaints : List Complaint) : Prop where
  located : ∀ c ∈ complaints, ∃ i line detail, lines[i]? = some line ∧ normalize line ≠ []
    ∧ c.line? = some (i + 1) ∧ c.message = "Line " ++ toString (i + 1) ++ ": " ++ detail
  increasing : complaints.Pairwise fun c d => ∀ m ∈ c.line?, ∀ n ∈ d.line?, m < n
  unreadable : ∀ number content, .unreadable number content ∈ complaints
    ↔ ∃ i line, lines[i]? = some line ∧ number = i + 1 ∧ content = String.ofList (normalize line)
      ∧ (Openness.behind (lines.take i)).IsUnreadable (normalize line)
  unmatched : ∀ number participant, .unmatchedDeactivate number participant ∈ complaints
    ↔ ∃ i line, lines[i]? = some line ∧ number = i + 1
      ∧ (Openness.behind (lines.take i)).IsUnmatched (normalize line) participant

/-! ### Complaints about lines -/

/-- The message of a complaint about a line begins with the number of the line. -/
theorem Complaint.exists_message {c : Complaint} {number : ℕ} (h : c.line? = some number) :
  ∃ detail, c.message = "Line " ++ toString number ++ ": " ++ detail
  := by
  cases c with
  | unreadable line text =>
    obtain rfl := Option.some.inj h
    have hword : ": could not parse \"" = ": " ++ "could not parse \"" := by decide
    refine ⟨"could not parse \"" ++ text ++ "\".", ?_⟩
    change "Line " ++ toString line ++ ": could not parse \"" ++ text ++ "\"." = _
    rw [hword]
    simp only [String.append_assoc]
  | unmatchedDeactivate line participant =>
    obtain rfl := Option.some.inj h
    have hword : ": deactivate without matching activate for \""
        = ": " ++ "deactivate without matching activate for \"" := by decide
    refine ⟨"deactivate without matching activate for \"" ++ participant ++ "\".", ?_⟩
    change "Line " ++ toString line ++ ": deactivate without matching activate for \"" ++ participant
      ++ "\"." = _
    rw [hword]
    simp only [String.append_assoc]
  | unclosedClass name => contradiction
  | neverDeactivated participant moment => contradiction

/-- A line is no statement when no form reads it. -/
theorem Statement.ofLine?_eq_none_iff {line : List Char} :
  ofLine? line = none ↔ ∀ form ∈ Script.forms, form line = none
  := List.findSome?_eq_none_iff

namespace Openness

variable {o : Openness} {number : ℕ} {line : List Char} {c : Complaint}

/-- A line without content leaves open what is open. -/
theorem after_of_blank (h : Script.normalize line = []) :
  o.after line = o
  := by
  rw [after, h]
  split
  · exact if_neg List.not_mem_nil
  · rfl

/-- A complaint about a line is about its content: it cannot be read, or its command is unmatched. -/
theorem complaint?_eq_some_iff :
  o.complaint? number line = some c
    ↔ (c = .unreadable number (String.ofList (Script.normalize line))
        ∧ o.IsUnreadable (Script.normalize line))
      ∨ ∃ participant, c = .unmatchedDeactivate number participant
        ∧ o.IsUnmatched (Script.normalize line) participant
  := by
  constructor
  · intro h
    rw [complaint?] at h
    split_ifs at h with hnone
    obtain ⟨hopen, hne⟩ := not_or.mp hnone
    rw [not_not] at hopen
    cases hline : Statement.ofLine? (Script.normalize line) with
    | none =>
      rw [hline] at h
      left
      exact ⟨(Option.some.inj h).symm, hne, hopen, Statement.ofLine?_eq_none_iff.mp hline⟩
    | some statement =>
      rw [hline, Option.elim_some] at h
      cases statement with
      | activation command participant =>
        cases command with
        | activate => contradiction
        | deactivate =>
          rw [objection?] at h
          split_ifs at h with hdepth
          right
          exact ⟨participant, (Option.some.inj h).symm, hopen, hline, hdepth⟩
      | _ => contradiction
  · rintro (⟨rfl, hne, hopen, hforms⟩ | ⟨participant, rfl, hopen, hline, hdepth⟩)
    · rw [complaint?, if_neg (not_or.mpr ⟨not_not.mpr hopen, hne⟩),
        Statement.ofLine?_eq_none_iff.mpr hforms, Option.elim_none]
    · have hne : Script.normalize line ≠ [] := by
        intro hnil
        rw [hnil] at hline
        contradiction
      rw [complaint?, if_neg (not_or.mpr ⟨not_not.mpr hopen, hne⟩), hline, Option.elim_some,
        objection?, if_pos hdepth]

/-- A complaint that arises at a line is about this line. -/
theorem line?_of_complaint? (h : o.complaint? number line = some c) :
  c.line? = some number
  := by
  rcases complaint?_eq_some_iff.mp h with ⟨rfl, -⟩ | ⟨participant, rfl, -⟩
  · rfl
  · rfl

/-- Complaints arise only at lines with content. -/
theorem normalize_ne_nil_of_complaint? (h : o.complaint? number line = some c) :
  Script.normalize line ≠ []
  := by
  intro hnil
  rw [complaint?, if_pos (Or.inr hnil)] at h
  contradiction

/-- The complaints about lines are those about each of them, with what the lines in front of it leave
open. -/
theorem mem_complaints_iff {lines : List (List Char)} :
  c ∈ o.complaints number lines
    ↔ ∃ i line, lines[i]? = some line
      ∧ ((lines.take i).foldl after o).complaint? (number + i) line = some c
  := by
  induction lines generalizing o number with
  | nil => simp [complaints]
  | cons first rest ih =>
    rw [complaints, List.mem_append, Option.mem_toList, ih]
    constructor
    · rintro (h | ⟨i, line, hline, h⟩)
      · exact ⟨0, first, rfl, h⟩
      · refine ⟨i + 1, line, hline, ?_⟩
        rw [List.take_succ_cons, List.foldl_cons, Nat.add_left_comm, Nat.add_comm]
        exact h
    · rintro ⟨i, line, hline, h⟩
      cases i with
      | zero =>
        obtain rfl := Option.some.inj hline
        exact Or.inl h
      | succ i =>
        right
        refine ⟨i, line, hline, ?_⟩
        rw [List.take_succ_cons, List.foldl_cons, Nat.add_left_comm, Nat.add_comm] at h
        exact h

/-- The complaints about lines come in the order of the lines, at most one about each. -/
theorem pairwise_complaints (lines : List (List Char)) :
  (o.complaints number lines).Pairwise fun c d => ∀ m ∈ c.line?, ∀ n ∈ d.line?, m < n
  := by
  induction lines generalizing o number with
  | nil => exact List.Pairwise.nil
  | cons first rest ih =>
    rw [complaints, List.pairwise_append]
    refine ⟨?_, ih, ?_⟩
    · cases o.complaint? number first with
      | none => exact List.Pairwise.nil
      | some c => exact List.pairwise_singleton _ c
    · -- The complaints about the rest are about lines with greater numbers.
      intro c hc d hd m hm n hn
      obtain ⟨i, line, -, hline⟩ := mem_complaints_iff.mp hd
      rw [line?_of_complaint? (Option.mem_toList.mp hc)] at hm
      rw [line?_of_complaint? hline] at hn
      obtain rfl := Option.some.inj hm
      obtain rfl := Option.some.inj hn
      omega

/-- The complaints about the lines of a script are as they should be. -/
theorem areComplaints_complaints (lines : List (List Char)) :
  Script.AreComplaints lines (initial.complaints 1 lines)
  where
  located := by
    intro c hc
    obtain ⟨i, line, hline, h⟩ := mem_complaints_iff.mp hc
    have hnumber := line?_of_complaint? h
    rw [Nat.add_comm] at hnumber
    obtain ⟨detail, hdetail⟩ := Complaint.exists_message hnumber
    exact ⟨i, line, detail, hline, normalize_ne_nil_of_complaint? h, hnumber, hdetail⟩
  increasing := pairwise_complaints lines
  unreadable := by
    intro number content
    rw [mem_complaints_iff]
    apply exists_congr
    intro i
    apply exists_congr
    intro line
    apply and_congr_right
    intro _
    rw [complaint?_eq_some_iff, Complaint.unreadable.injEq, Nat.add_comm 1, and_assoc]
    simp only [reduceCtorEq, false_and, exists_false, or_false]
    rfl
  unmatched := by
    intro number participant
    rw [mem_complaints_iff]
    apply exists_congr
    intro i
    apply exists_congr
    intro line
    apply and_congr_right
    intro _
    rw [complaint?_eq_some_iff, Nat.add_comm 1]
    simp only [reduceCtorEq, false_and, false_or, Complaint.unmatchedDeactivate.injEq, and_assoc,
      exists_and_left, exists_eq_left']
    rfl

end Openness

/-! ### Readings -/

namespace Reading

variable {r : Reading}

/-- What a reading has open. -/
def openness (r : Reading) : Openness :=
  ⟨r.openClass, fun participant => (r.stack participant).length⟩

theorem openness_activate (participant : String) :
  (r.activate participant).openness = r.openness.perform (.activation .activate participant)
  := by
  have hdepth : ∀ p, ((r.activate participant).stack p).length
      = Function.update r.openness.depth participant (r.openness.depth participant + 1) p := by
    intro p
    rw [stack, activate, Catalog.find?_adjust, Function.update_apply]
    split_ifs
    · rfl
    · rfl
  exact congrArg (Openness.mk r.openClass) (funext hdepth)

/-- A command to deactivate ends an activation, or it is complained about. -/
theorem openness_deactivate (number : ℕ) (participant : String) :
  (r.deactivate number participant).openness
      = r.openness.perform (.activation .deactivate participant)
    ∧ (r.deactivate number participant).complaints = r.complaints
      ++ (r.openness.objection? number (.activation .deactivate participant)).toList
  := by
  rw [deactivate, Openness.objection?, Openness.perform]
  split
  · rename_i start others hfind
    have hstack : r.openness.depth participant = others.length + 1 := by
      change (r.stack participant).length = _
      rw [stack, hfind, Option.getD_some, List.length_cons]
    have hdepth : ∀ p, (((r.active.put participant others).find? p).getD []).length
        = Function.update r.openness.depth participant (r.openness.depth participant - 1) p := by
      intro p
      rw [Catalog.find?_put, Function.update_apply]
      split_ifs
      · rw [hstack]
        rfl
      · rfl
    rw [if_neg (hstack.trans_ne (Nat.succ_ne_zero _)), Option.toList_none, List.append_nil]
    exact ⟨congrArg (Openness.mk r.openClass) (funext hdepth), rfl⟩
  · rename_i hnone
    -- The participant has no entry, or one whose activations have all ended.
    have hstack : r.openness.depth participant = 0 := by
      change ((r.active.find? participant).getD []).length = 0
      cases hfind : r.active.find? participant with
      | none => rfl
      | some starts =>
        cases starts with
        | nil => rfl
        | cons start others => exact absurd hfind (hnone start others)
    have hkeep : Function.update r.openness.depth participant (r.openness.depth participant - 1)
        = r.openness.depth := by
      have hsame : r.openness.depth participant - 1 = r.openness.depth participant := by omega
      rw [hsame, Function.update_eq_self]
    rw [hkeep, if_pos hstack]
    exact ⟨rfl, rfl⟩

/-- A statement opens and closes what it should and is complained about where it should be. -/
theorem openness_perform (number : ℕ) (statement : Statement) :
  (r.perform number statement).openness = r.openness.perform statement
    ∧ (r.perform number statement).complaints
      = r.complaints ++ (r.openness.objection? number statement).toList
  := by
  cases statement with
  | activation command participant =>
    cases command with
    | activate =>
      have hopenness := openness_activate (r := r.adjustSequence (·.give .activate participant))
        participant
      exact ⟨hopenness, (List.append_nil _).symm⟩
    | deactivate =>
      exact openness_deactivate (r := r.adjustSequence (·.give .deactivate participant)) number
        participant
  | _ => exact ⟨rfl, (List.append_nil _).symm⟩

/-- The line of a class body closes the class at a brace, without any complaint. -/
theorem openness_performBody (name : String) (line : List Char) :
  (r.performBody name (.ofLine line)).openness
      = (if '\x7d' ∈ line then { r.openness with openClass := none } else r.openness)
    ∧ (r.performBody name (.ofLine line)).complaints = r.complaints
  := by
  rw [BodyLine.ofLine, List.contains_eq_mem]
  simp only [decide_eq_true_eq]
  split_ifs
  · exact ⟨rfl, rfl⟩
  · exact ⟨rfl, rfl⟩

/-- What is open behind a line, and the complaint about it, can be told from what is open in front of
it. -/
theorem openness_step (number : ℕ) (line : List Char) :
  (r.step number line).openness = r.openness.after line
    ∧ (r.step number line).complaints
      = r.complaints ++ (r.openness.complaint? number line).toList
  := by
  by_cases hblank : Script.normalize line = []
  · rw [step, if_pos (List.isEmpty_iff.mpr hblank), Openness.after_of_blank hblank,
      Openness.complaint?, if_pos (Or.inr hblank)]
    exact ⟨rfl, (List.append_nil _).symm⟩
  rw [step, if_neg (List.isEmpty_iff.not.mpr hblank), readLine, Openness.after, Openness.complaint?]
  change _ = (match r.openClass with | some _ => _ | none => _) ∧ _
  cases hopen : r.openClass with
  | some name =>
    obtain ⟨hopenness, hcomplaints⟩ := openness_performBody (r := r) name (Script.normalize line)
    have hne : r.openness.openClass ≠ none := hopen.trans_ne (Option.some_ne_none name)
    rw [if_pos (Or.inl hne)]
    exact ⟨hopenness, hcomplaints.trans (List.append_nil _).symm⟩
  | none =>
    have hclosed : ¬r.openness.openClass ≠ none := not_not.mpr hopen
    rw [if_neg (not_or.mpr ⟨hclosed, hblank⟩)]
    cases hline : Statement.ofLine? (Script.normalize line) with
    | some statement => exact openness_perform number statement
    | none => exact ⟨rfl, rfl⟩

/-- Reading lines opens, closes and complains as the lines say, one after the other. -/
theorem openness_readFrom (number : ℕ) (lines : List (List Char)) :
  (r.readFrom number lines).openness = lines.foldl Openness.after r.openness
    ∧ (r.readFrom number lines).complaints
      = r.complaints ++ r.openness.complaints number lines
  := by
  induction lines generalizing r number with
  | nil => exact ⟨rfl, (List.append_nil _).symm⟩
  | cons line rest ih =>
    obtain ⟨hopenness, hcomplaints⟩ := openness_step (r := r) number line
    obtain ⟨hrest, hrest'⟩ := ih (r := r.step number line) (number + 1)
    rw [readFrom, List.foldl_cons, ← hopenness]
    refine ⟨hrest, ?_⟩
    rw [hrest', hcomplaints, hopenness, List.append_assoc, Openness.complaints]

/-! ### The end of a script -/

/-- Of the entries of a catalog only the one under the key of a participant is about this
participant. -/
theorem countP_flatMap_entries {entries : List (String × List ℕ)}
    (h : (entries.map Prod.fst).Nodup) (participant : String) :
  (entries.flatMap fun e => e.2.reverse.map (Prod.mk e.1)).countP (fun a => a.1 = participant)
    = ((entries.lookup participant).getD []).length
  := by
  induction entries with
  | nil => rfl
  | cons e rest ih =>
    rw [List.map_cons, List.nodup_cons] at h
    rw [List.flatMap_cons, List.countP_append, ih h.2, List.countP_map, List.lookup_cons]
    by_cases he : participant = e.1
    · subst he
      have hnone : rest.lookup e.1 = none := by
        rw [List.lookup_eq_none_iff]
        intro a ha
        rw [bne_iff_ne]
        intro heq
        exact h.1 (heq ▸ List.mem_map_of_mem ha)
      rw [hnone, beq_self_eq_true]
      simp [Function.comp_def]
    · rw [beq_false_of_ne he]
      simp [Function.comp_def, Ne.symm he]

/-- As many activations of a participant are pending as its depth says. -/
theorem countP_pending (participant : String) :
  r.pending.countP (fun a => a.1 = participant) = r.openness.depth participant
  := countP_flatMap_entries r.active.nodup participant

theorem moment_finish (r : Reading) :
  r.finish.model.sequence.moment = r.model.sequence.moment
  := by
  rw [finish_eq]
  dsimp only
  rw [foldl_activateFrom]
  rfl

/-- The pending activations are ended at the last moment, behind all others. -/
theorem exists_lasting (r : Reading) :
  ∃ lasting, r.finish.model.sequence.activations = r.model.sequence.activations ++ lasting
    ∧ lasting.map (fun a => (a.participant, a.start, a.finish))
      = r.pending.map fun a => (a.1, a.2, r.model.sequence.moment)
  := by
  have hmap := @SequenceDiagram.map_activations_foldl r.model.sequence r.pending _
    fun participant start finish => (participant, start, finish)
  rw [finish_eq]
  dsimp only
  rw [foldl_activateFrom, List.map_append] at hmap
  rw [foldl_activateFrom]
  exact ⟨_, rfl, List.append_cancel_left hmap⟩

/-- The complaints about a text are those about its lines, the one about the class that is open at the end,
if any, and one about each activation that is left to the end. These are the last activations, as many of
a participant as the lines have left open, and they end at the last moment. -/
theorem ofText_areComplaints (text : String) :
  let lines := Script.lines text.toList
  let d := (ofText text).model.sequence
  ∃ located lasting,
    (ofText text).complaints = located
        ++ (Openness.behind lines).openClass.toList.map Complaint.unclosedClass
        ++ lasting.map (fun a => .neverDeactivated a.participant a.finish)
      ∧ Script.AreComplaints lines located
      ∧ d.activations = endedActivations text ++ lasting
      ∧ (∀ a ∈ lasting, a.finish = d.messages.length)
      ∧ ∀ participant, lasting.countP (fun a => a.participant = participant)
        = (Openness.behind lines).depth participant
  := by
  intro lines d
  let r := initial.readFrom 1 lines
  obtain ⟨hopenness, hcomplaints⟩ := openness_readFrom (r := initial) 1 lines
  have hread : r.openness = Openness.behind lines := hopenness
  obtain ⟨lasting, hactivations, hlasting⟩ := r.exists_lasting
  refine ⟨Openness.initial.complaints 1 lines, lasting, ?_,
    Openness.areComplaints_complaints lines, hactivations, ?_, ?_⟩
  · have hmap := congrArg (List.map fun a => Complaint.neverDeactivated a.1 a.2.2) hlasting
    rw [List.map_map, List.map_map] at hmap
    change r.finish.complaints = _
    rw [finish_eq, ← hread, hcomplaints]
    exact congrArg (_ ++ ·) hmap.symm
  · intro a ha
    have hmem := List.mem_map_of_mem (f := fun a : Activation => (a.participant, a.start, a.finish)) ha
    rw [hlasting] at hmem
    obtain ⟨b, -, hb⟩ := List.mem_map.mp hmem
    have hfinish : r.model.sequence.moment = a.finish := congrArg (fun t => t.2.2) hb
    rw [← hfinish, ← r.moment_finish]
    rfl
  · intro participant
    have hcount := congrArg (List.countP fun a => a.1 = participant) hlasting
    rw [List.countP_map, List.countP_map] at hcount
    rw [← hread, ← countP_pending]
    exact hcount

/-- The class is complained about before the activation, which began in front of it. -/
example :
  (ofText "?\nactivate A\nclass C \x7b").complaints
    = [.unreadable 1 "?", .unclosedClass "C", .neverDeactivated "A" 0]
  := by
  decide

end Reading

end DiagramLayout
