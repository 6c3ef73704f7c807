import DiagramLayout.Proofs.Catalog
import DiagramLayout.Proofs.Script.Line
import DiagramLayout.Proofs.Script.Printer
import DiagramLayout.Proofs.Script.Reading
import DiagramLayout.Script.Meaning
import Mathlib.Data.List.Induction

/-!
# Reading undoes printing

A statement behind a script adds to its meaning what carrying it out adds to a reading. So the reading
of a script of plain statements, printed one on each line, has the model that the script means, and
complains about the activations that do not come in pairs and about nothing else.
-/

namespace DiagramLayout

variable {script : List Statement}

/-! ### Names, numbers and catalogs of a longer script -/

theorem length_numbered {α : Type} (label : String) (things : List (String → α)) :
  (numbered label things).length = things.length
  := List.length_mapIdx

/-- One more thing gets the next number. -/
theorem numbered_concat {α : Type} (label : String) (things : List (String → α))
    (thing : String → α) :
  numbered label (things ++ [thing])
    = numbered label things
      ++ [thing (label ++ toString ((numbered label things).length + 1))]
  := by
  rw [length_numbered, numbered, List.mapIdx_concat]
  rfl

theorem NameSet.mem_ofList {names : List String} {name : String} :
  name ∈ ofList names ↔ name ∈ names
  := by
  have hfold : ∀ s : NameSet, name ∈ names.foldl insert s ↔ name ∈ s ∨ name ∈ names := by
    induction names with
    | nil => simp
    | cons first rest ih =>
      intro s
      rw [List.foldl_cons, ih, mem_insert, List.mem_cons, or_assoc]
  rw [ofList, hfold, or_iff_right]
  apply List.not_mem_nil

/-- The names of two lists are those of the first, with the others inserted one by one. -/
theorem NameSet.ofList_append (names more : List String) :
  ofList (names ++ more) = more.foldl insert (ofList names)
  := List.foldl_append

namespace Catalog

variable {α : Type} {names : NameSet} {value other : String → α}

theorem keys_ofNames :
  (ofNames names value).keys = names.toList
  := by
  rw [keys, ofNames, List.map_map]
  apply List.map_id'

/-- A catalog over some names has a value under each of them and under no other. -/
theorem find?_ofNames (name : String) :
  (ofNames names value).find? name = if name ∈ names then some (value name) else none
  := by
  split_ifs with hname
  · exact find?_eq_some_iff.mpr (List.mem_map_of_mem hname)
  · rw [find?_eq_none_iff, keys_ofNames]
    exact hname

/-- Only the values at the names matter. -/
theorem ofNames_congr (h : ∀ name ∈ names, value name = other name) :
  ofNames names value = ofNames names other
  := by
  apply ext
  apply List.map_congr_left
  intro name hname
  rw [h name hname]

/-- Changing the value under a name, which is added if it is new, changes the function that gives the
values. -/
theorem adjust_ofNames {name : String} {default : α} {update : α → α}
    (hdefault : name ∉ names → value name = default) :
  (ofNames names value).adjust name default update
    = ofNames (names.insert name) fun other =>
      if other = name then update (value name) else value other
  := by
  have hvalue : ((ofNames names value).find? name).getD default = value name := by
    rw [find?_ofNames]
    split_ifs with hname
    · rfl
    · exact (hdefault hname).symm
  apply ext
  rw [adjust, entries_put, keys_ofNames, hvalue]
  change _ = (names.insert name).toList.map _
  rw [NameSet.toList_insert]
  split_ifs with hname
  · change ((names.toList.map _).map _) = _
    rw [List.map_map]
    apply List.map_congr_left
    intro other _
    by_cases h : other = name
    · simp [h]
    · simp [h]
  · change names.toList.map _ ++ _ = _
    rw [List.map_append, List.map_singleton]
    dsimp only
    rw [if_pos rfl]
    congr 1
    apply List.map_congr_left
    intro other hother
    rw [if_neg (ne_of_mem_of_not_mem hother hname)]

end Catalog

/-! ### Diagrams of a longer script -/

/-- Of the statements, only associations go on with a use case diagram. -/
theorem UseCaseDiagram.ofScript_concat (script : List Statement) (s : Statement) :
  ofScript (script ++ [s]) =
    match s with
    | .association actor useCase isAsync => (ofScript script).associate actor useCase isAsync
    | _ => ofScript script
  := by
  cases s with
  | association actor useCase isAsync =>
    simp only [ofScript, List.flatMap_append, List.flatMap_singleton, List.filterMap_append,
      NameSet.ofList_append, Statement.actors, Statement.useCases, List.filterMap_cons,
      Statement.toAssociation?, List.filterMap_nil, numbered_concat, associate, List.foldl_cons,
      List.foldl_nil]
  | _ =>
    simp only [ofScript, List.flatMap_append, List.flatMap_singleton, List.filterMap_append,
      Statement.actors, Statement.useCases, List.filterMap_cons, Statement.toAssociation?,
      List.filterMap_nil, List.append_nil]

/-- A state that is named again, or by the star, is declared as the model declares it. -/
theorem StateDiagram.ofList_append_filter (names : List String) (name : String) :
  NameSet.ofList (names ++ [name].filter (· ≠ "*")) = declare (.ofList names) name
  := by
  rw [declare]
  split_ifs with hpseudo
  · rw [hpseudo]
    change NameSet.ofList (names ++ []) = _
    rw [List.append_nil]
  · have hkeep : [name].filter (· ≠ "*") = [name] :=
      List.filter_eq_self.mpr fun other hother =>
        decide_eq_true (List.mem_singleton.mp hother ▸ hpseudo)
    rw [hkeep, NameSet.ofList_append]
    rfl

/-- Of the statements, only transitions go on with a state diagram. -/
theorem StateDiagram.ofScript_concat (script : List Statement) (s : Statement) :
  ofScript (script ++ [s]) =
    match s with
    | .transition source target label isAsync =>
      (ofScript script).connect source target label isAsync
    | _ => ofScript script
  := by
  cases s with
  | transition source target label isAsync =>
    have hstates : [source, target] = [source] ++ [target] := rfl
    simp only [ofScript, List.flatMap_append, List.flatMap_singleton, Statement.states, hstates,
      List.filter_append, ← List.append_assoc, ofList_append_filter, List.filterMap_append,
      List.filterMap_cons, Statement.toTransition?, List.filterMap_nil, numbered_concat, connect]
  | _ =>
    simp only [ofScript, List.flatMap_append, List.flatMap_singleton, List.filterMap_append,
      Statement.states, List.filterMap_cons, Statement.toTransition?, List.filterMap_nil,
      List.append_nil]

/-! ### Classes of a longer script -/

/-- Plain members are added behind the others of their sort. -/
theorem ClassNode.addMembers_eq (c : ClassNode) {members : List (List Char)}
    (h : ∀ member ∈ members, Script.isPlainMember member = true) :
  c.addMembers members =
    { name := c.name
      attributes := c.attributes
        ++ (members.filter fun member => !isMethod member).map String.ofList
      methods := c.methods ++ (members.filter isMethod).map String.ofList }
  := by
  induction members generalizing c with
  | nil => simp [addMembers]
  | cons member rest ih =>
    obtain ⟨hmember, hrest⟩ := List.forall_mem_cons.mp h
    have htrim := trim_eq (Script.isTrim_of_isPlainMember hmember)
    have hnonempty : ¬member.isEmpty = true := by
      rw [List.isEmpty_iff]
      exact Script.ne_nil_of_isPlainMember hmember
    rw [addMembers, List.foldl_cons, ← addMembers, ih _ hrest, addMember, htrim]
    simp only [if_neg hnonempty]
    by_cases hmethod : isMethod member = true
    · simp [hmethod]
    · simp [hmethod]

/-- The members that a plain statement gives to a class are plain. -/
theorem Statement.isPlainMember_of_mem_membersOf {s : Statement} (h : s.isPlain = true)
    (name : String) :
  ∀ member ∈ s.membersOf name, Script.isPlainMember member = true
  := by
  cases s with
  | inlineClass other members =>
    simp only [isPlain, Bool.and_eq_true, List.all_eq_true] at h
    intro member hmember
    rw [membersOf] at hmember
    split_ifs at hmember
    · exact h.2 member hmember
    · contradiction
  | _ =>
    intro member hmember
    contradiction

namespace ClassNode

/-- The class that is not mentioned has no members. -/
theorem ofScript_of_not_mem {name : String}
    (h : name ∉ NameSet.ofList (script.flatMap Statement.classes)) :
  ofScript script name = bare name
  := by
  have hnone : script.flatMap (Statement.membersOf name) = [] := by
    rw [NameSet.mem_ofList, List.mem_flatMap, not_exists] at h
    rw [List.flatMap_eq_nil_iff]
    intro s hs
    cases s with
    | inlineClass other members =>
      rw [Statement.membersOf, if_neg]
      rintro rfl
      exact h _ ⟨hs, List.mem_singleton_self other⟩
    | _ => rfl
  simp only [ofScript, hnone]
  rfl

/-- A further statement adds its members to those that the script gives to a class. -/
theorem ofScript_concat (script : List Statement) {s : Statement} (h : s.isPlain = true)
    (name : String) :
  ofScript (script ++ [s]) name = (ofScript script name).addMembers (s.membersOf name)
  := by
  rw [addMembers_eq _ (Statement.isPlainMember_of_mem_membersOf h name)]
  simp only [ofScript, List.flatMap_append, List.flatMap_singleton, List.filter_append,
    List.map_append]

/-- A statement without members leaves all classes as they are. -/
theorem ofScript_concat_of_no_members (script : List Statement) {s : Statement}
    (h : s.isPlain = true) (hmembers : ∀ name, s.membersOf name = []) :
  ofScript (script ++ [s]) = ofScript script
  := by
  funext name
  rw [ofScript_concat script h, hmembers]
  rfl

end ClassNode

namespace ClassDiagram

/-- Declaring a class adds it bare, or leaves it as it is. -/
theorem classes_ensure {names : NameSet} {value : String → ClassNode} {name : String}
    (hbare : name ∉ names → value name = .bare name) :
  (Catalog.ofNames names value).adjust name (.bare name) id
    = Catalog.ofNames (names.insert name) value
  := by
  rw [Catalog.adjust_ofNames hbare]
  apply Catalog.ofNames_congr
  intro other _
  split_ifs with h
  · rw [h, id]
  · rfl

/-- A relation of a script adds its ends to the classes and itself to the relations. -/
theorem relate_ofScript (kind : RelationKind) (source target : String) :
  (ofScript script).relate kind source target =
    { classes := .ofNames (.ofList (script.flatMap Statement.classes ++ [source, target]))
        (ClassNode.ofScript script)
      relations := numbered "class-relation-" (script.filterMap Statement.toRelation? ++
        [fun id => ⟨id, source, target, kind, kind.markers.1, kind.markers.2⟩]) }
  := by
  have hsource : source ∉ NameSet.ofList (script.flatMap Statement.classes) →
      ClassNode.ofScript script source = .bare source := ClassNode.ofScript_of_not_mem
  have htarget : target ∉ (NameSet.ofList (script.flatMap Statement.classes)).insert source →
      ClassNode.ofScript script target = .bare target := by
    intro h
    apply ClassNode.ofScript_of_not_mem
    exact fun hmem => h (NameSet.mem_insert.mpr (Or.inl hmem))
  simp only [relate, ensure, adjust, ofScript, classes_ensure hsource, classes_ensure htarget,
    NameSet.ofList_append, List.foldl_cons, List.foldl_nil, numbered_concat]

/-- Of the statements, only classes and relations go on with a class diagram. -/
theorem ofScript_concat (script : List Statement) {s : Statement} (h : s.isPlain = true) :
  ofScript (script ++ [s]) =
    match s with
    | .inlineClass name members => (ofScript script).adjust name (·.addMembers members)
    | .relation kind left right =>
      let (source, target) := if kind = .inheritance then (right, left) else (left, right)
      (ofScript script).relate kind source target
    | _ => ofScript script
  := by
  cases s with
  | inlineClass name members =>
    have hclasses : (ofScript script).classes.adjust name (.bare name) (·.addMembers members)
        = .ofNames ((NameSet.ofList (script.flatMap Statement.classes)).insert name)
          (ClassNode.ofScript (script ++ [.inlineClass name members])) := by
      -- Only the value under the name of the class is another one.
      rw [ofScript, Catalog.adjust_ofNames ClassNode.ofScript_of_not_mem]
      apply Catalog.ofNames_congr
      intro other _
      rw [ClassNode.ofScript_concat script h, Statement.membersOf]
      by_cases hname : other = name
      · rw [if_pos hname, if_pos hname.symm, hname]
      · rw [if_neg hname, if_neg (Ne.symm hname)]
        rfl
    simp only [adjust, hclasses]
    simp only [ofScript, List.flatMap_append, List.flatMap_singleton, Statement.classes,
      NameSet.ofList_append, List.foldl_cons, List.foldl_nil, List.filterMap_append,
      List.filterMap_cons, Statement.toRelation?, List.filterMap_nil, List.append_nil]
  | openClass name => contradiction
  | relation kind left right =>
    have hnode := ClassNode.ofScript_concat_of_no_members script h fun _ => rfl
    cases kind
    all_goals
      simp only [reduceCtorEq, if_true, if_false, relate_ofScript]
      simp only [ofScript, hnode, List.flatMap_append, List.flatMap_singleton, Statement.classes,
        List.filterMap_append, List.filterMap_cons, Statement.toRelation?, List.filterMap_nil,
        RelationKind.markers]
  | _ =>
    have hnode := ClassNode.ofScript_concat_of_no_members script h fun _ => rfl
    simp only [ofScript, hnode, List.flatMap_append, List.flatMap_singleton, Statement.classes,
      List.filterMap_append, List.filterMap_cons, Statement.toRelation?, List.filterMap_nil,
      List.append_nil]

end ClassDiagram

/-! ### Activations of a longer script -/

namespace Script

/-- At the end of a script the moment is the number of its messages. -/
theorem momentAt_length (script : List Statement) :
  momentAt script script.length = (script.filterMap Statement.toMessage?).length
  := by
  rw [momentAt, List.take_length]

/-- A further statement does not change the moments before it. -/
theorem momentAt_concat (script : List Statement) (s : Statement) {index : ℕ}
    (h : index ≤ script.length) :
  momentAt (script ++ [s]) index = momentAt script index
  := by
  rw [momentAt, List.take_append_of_le_length h, ← momentAt]

/-- A statement behind a script gives its command at the moment when the script ends. -/
theorem commands_concat (script : List Statement) (s : Statement) :
  commands (script ++ [s]) = commands script
    ++ (s.toCommand? (script.length + 1) (momentAt script script.length)).toList
  := by
  rw [commands, List.zipIdx_append, List.filterMap_append]
  congr 1
  · apply List.filterMap_congr
    intro e he
    have hindex : e.2 < script.length := by
      obtain ⟨-, hlt, -⟩ := List.mem_zipIdx he
      omega
    rw [momentAt_concat script s hindex.le]
  · rw [List.zipIdx_singleton, Nat.zero_add, List.filterMap_cons, List.filterMap_nil,
      momentAt_concat script s (Nat.le_refl _)]
    cases s.toCommand? (script.length + 1) (momentAt script script.length)
    all_goals rfl

/-- A further statement is taken into the course when it is a command. -/
theorem course_concat (script : List Statement) (s : Statement) :
  course (script ++ [s])
    = (s.toCommand? (script.length + 1) (momentAt script script.length)).toList.foldl Course.take
      (course script)
  := by
  rw [course, commands_concat, List.foldl_append]
  rfl

/-- A further statement adds its participant when it is a command to activate. -/
theorem activated_concat (script : List Statement) (s : Statement) :
  activated (script ++ [s])
    = ((((s.toCommand? (script.length + 1) (momentAt script script.length)).toList).filter
      fun c => c.command = .activate).map GivenCommand.participant).foldl NameSet.insert
        (activated script)
  := by
  rw [activated, commands_concat, List.filter_append, List.map_append, NameSet.ofList_append]
  rfl

end Script

namespace SequenceDiagram

/-- The sequence diagram of a script as long as it goes on: without the activations that are running. -/
def soFar (script : List Statement) : SequenceDiagram where
  participants := .ofList (script.flatMap Statement.participants)
  messages := numbered "sequence-message-" (script.filterMap Statement.toMessage?)
  activations := numbered "activation-" (Script.course script).ended
  commands := numbered "seq-command-" ((Script.commands script).map fun c id =>
    ⟨id, c.command, c.participant, c.moment⟩)

/-- The moment of the diagram is the one at the end of the script. -/
theorem moment_soFar (script : List Statement) :
  (soFar script).moment = Script.momentAt script script.length
  := by
  rw [Script.momentAt_length]
  apply length_numbered

/-- A further message is sent in the diagram. -/
theorem soFar_message (script : List Statement) (sender receiver text : String) (isAsync : Bool) :
  soFar (script ++ [.message sender receiver text isAsync])
    = (soFar script).send sender receiver text isAsync
  := by
  simp only [soFar, send, Script.course_concat, Script.commands_concat, Statement.toCommand?,
    Option.toList_none, List.foldl_nil, List.append_nil, List.flatMap_append, List.flatMap_singleton,
    Statement.participants, NameSet.ofList_append, List.foldl_cons, List.filterMap_append,
    List.filterMap_cons, Statement.toMessage?, List.filterMap_nil, numbered_concat]

/-- A statement about something else changes nothing here. -/
theorem soFar_concat_of_none (script : List Statement) {s : Statement} (hnames : s.participants = [])
    (hmessage : s.toMessage? = none) (hcommand : ∀ line moment, s.toCommand? line moment = none) :
  soFar (script ++ [s]) = soFar script
  := by
  simp only [soFar, Script.course_concat, Script.commands_concat, hcommand, Option.toList_none,
    List.foldl_nil, List.append_nil, List.flatMap_append, List.flatMap_singleton, hnames,
    List.filterMap_append, List.filterMap_cons, hmessage, List.filterMap_nil]

/-- A command is given to its participant; what becomes of the activations is up to their course. -/
theorem soFar_activation (script : List Statement) (command : ActivationCommand)
    (participant : String) :
  soFar (script ++ [.activation command participant]) =
    { (soFar script).give command participant with
      activations := numbered "activation-"
        (Script.course (script ++ [.activation command participant])).ended }
  := by
  simp only [soFar, give, Script.commands_concat, Statement.toCommand?, Option.toList_some,
    List.flatMap_append, List.flatMap_singleton, Statement.participants, NameSet.ofList_append,
    List.foldl_cons, List.foldl_nil, List.filterMap_append, List.filterMap_cons,
    Statement.toMessage?, List.filterMap_nil, List.append_nil, List.map_append, List.map_singleton,
    numbered_concat, ← moment_soFar]

/-- Ended activations are numbered behind the others. -/
theorem foldl_activateFrom_numbered {d : SequenceDiagram}
    {things : List (String → Activation)} (h : d.activations = numbered "activation-" things)
    (begun : List (String × ℕ)) :
  begun.foldl (fun d a => d.activateFrom a.1 a.2) d =
    { d with
      activations := numbered "activation-" (things
        ++ begun.map fun a id => ⟨id, a.1, a.2, d.moment⟩) }
  := by
  induction begun generalizing d things with
  | nil =>
    rw [List.map_nil, List.append_nil, ← h]
    rfl
  | cons a rest ih =>
    have hnext : (d.activateFrom a.1 a.2).activations
        = numbered "activation-" (things ++ [fun id => ⟨id, a.1, a.2, d.moment⟩]) := by
      rw [numbered_concat, ← h]
      rfl
    rw [List.foldl_cons, ih hnext, List.append_assoc]
    rfl

end SequenceDiagram

/-! ### Readings and courses -/

section Erasing

variable {α : Type} {p q : α → Bool} {list : List α} {a : α}

/-- The first element that is found is the first of those that are kept. -/
theorem filter_eq_cons_of_find? (h : list.find? p = some a) :
  list.filter p = a :: (list.eraseP p).filter p
  := by
  induction list with
  | nil => contradiction
  | cons b rest ih =>
    by_cases hb : p b = true
    · rw [List.find?_cons_of_pos hb] at h
      obtain rfl := Option.some.inj h
      rw [List.filter_cons_of_pos hb, List.eraseP_cons_of_pos hb]
    · rw [List.find?_cons_of_neg hb] at h
      rw [List.filter_cons_of_neg hb, List.eraseP_cons_of_neg hb, List.filter_cons_of_neg hb, ih h]

/-- Erasing an item does not change what is filtered by a test that it fails. -/
theorem filter_eraseP_of_disjoint (h : ∀ a, p a = true → q a = false) :
  (list.eraseP p).filter q = list.filter q
  := by
  induction list with
  | nil => rfl
  | cons b rest ih =>
    by_cases hb : p b = true
    · rw [List.eraseP_cons_of_pos hb, List.filter_cons_of_neg]
      rw [h b hb]
      exact Bool.false_ne_true
    · rw [List.eraseP_cons_of_neg hb, List.filter_cons, List.filter_cons, ih]

end Erasing

namespace Reading

variable {r : Reading}

theorem eq_some_of_getD_eq_cons {stack : Option (List ℕ)} {start : ℕ} {others : List ℕ}
    (h : stack.getD [] = start :: others) :
  stack = some (start :: others)
  := by
  cases stack with
  | none => contradiction
  | some stack => exact congrArg some h

/-- A command to deactivate ends the open activation that began last. -/
theorem deactivate_of_getD_eq_cons {participant : String} {start : ℕ} {others : List ℕ}
    (h : (r.active.find? participant).getD [] = start :: others) (line : ℕ) :
  (r.adjustSequence (·.give .deactivate participant)).deactivate line participant
    = { r with active := r.active.put participant others }.adjustSequence
      fun d => (d.give .deactivate participant).activateFrom participant start
  := by
  have hfind : (r.adjustSequence (·.give .deactivate participant)).active.find? participant
      = some (start :: others) := eq_some_of_getD_eq_cons h
  rw [deactivate, hfind]
  rfl

/-- A command to deactivate is complained about when no activation is open. -/
theorem deactivate_of_getD_eq_nil {participant : String}
    (h : (r.active.find? participant).getD [] = []) (line : ℕ) :
  (r.adjustSequence (·.give .deactivate participant)).deactivate line participant
    = (r.adjustSequence (·.give .deactivate participant)).complain
      (.unmatchedDeactivate line participant)
  := by
  rw [deactivate]
  split
  · rename_i start others hfind
    change r.active.find? participant = _ at hfind
    rw [hfind] at h
    contradiction
  · rfl

/-- The activations that are open in the reading are those that are running. -/
structure Follows (r : Reading) (c : Course) (activated : NameSet) : Prop where
  activations : r.model.sequence.activations = numbered "activation-" c.ended
  complaints : r.complaints = c.complaints
  active : ∀ participant, (r.active.find? participant).getD []
    = (c.running.filter fun a => a.1 = participant).map Prod.snd
  keys : r.active.keys = activated.toList

namespace Follows

variable {c : Course} {activated : NameSet}

/-- Activating keeps the reading and the course in step. -/
theorem activate (h : r.Follows c activated) (line : ℕ) (participant : String) :
  ((r.adjustSequence (·.give .activate participant)).activate participant).Follows
    (c.take ⟨line, .activate, participant, r.model.sequence.moment⟩) (activated.insert participant)
  where
  activations := h.activations
  complaints := h.complaints
  active := by
    intro other
    change ((r.active.adjust participant [] (r.model.sequence.moment :: ·)).find? other).getD [] = _
    rw [Catalog.find?_adjust]
    change _ = (((participant, r.model.sequence.moment) :: c.running).filter _).map Prod.snd
    split_ifs with hother
    · rw [List.filter_cons_of_pos, List.map_cons, hother, ← h.active, Option.getD_some]
      exact decide_eq_true hother.symm
    · rw [List.filter_cons_of_neg, h.active]
      exact fun heq => hother (of_decide_eq_true heq).symm
  keys := by
    change (r.active.put participant _).keys = _
    rw [Catalog.keys_put, NameSet.toList_insert, h.keys]

/-- Deactivating keeps the reading and the course in step. -/
theorem deactivate (h : r.Follows c activated) (line : ℕ) (participant : String) :
  ((r.adjustSequence (·.give .deactivate participant)).deactivate line participant).Follows
    (c.take ⟨line, .deactivate, participant, r.model.sequence.moment⟩) activated
  := by
  have hstack := h.active participant
  -- The activation that began last is the first one in the course, too.
  cases hfind : c.running.find? fun a => a.1 = participant with
  | some begun =>
    rw [filter_eq_cons_of_find? hfind, List.map_cons] at hstack
    have hmem : participant ∈ r.active.keys := by
      apply Catalog.exists_find?_iff.mp
      exact ⟨_, eq_some_of_getD_eq_cons hstack⟩
    rw [deactivate_of_getD_eq_cons hstack]
    simp only [Course.take, hfind]
    refine ⟨?_, h.complaints, ?_, ?_⟩
    · rw [numbered_concat, ← h.activations]
      rfl
    · intro other
      change ((r.active.put participant _).find? other).getD [] = _
      rw [Catalog.find?_put]
      split_ifs with hother
      · rw [hother, Option.getD_some]
      · rw [h.active, filter_eraseP_of_disjoint]
        intro a ha
        rw [of_decide_eq_true ha]
        exact decide_eq_false (Ne.symm hother)
    · change (r.active.put participant _).keys = _
      rw [Catalog.keys_put, if_pos hmem, h.keys]
  | none =>
    have hnone : (c.running.filter fun a => a.1 = participant) = [] :=
      List.filter_eq_nil_iff.mpr (List.find?_eq_none.mp hfind)
    rw [hnone, List.map_nil] at hstack
    rw [deactivate_of_getD_eq_nil hstack]
    simp only [Course.take, hfind]
    refine ⟨h.activations, ?_, h.active, h.keys⟩
    rw [← h.complaints]
    rfl

end Follows

/-! ### Reading printed scripts -/

/-- What has been read is what the script means, as far as it has gone. -/
structure Means (r : Reading) (script : List Statement) : Prop where
  useCase : r.model.useCase = .ofScript script
  classes : r.model.classes = .ofScript script
  state : r.model.state = .ofScript script
  sequence : r.model.sequence = .soFar script
  openClass : r.openClass = none
  follows : r.Follows (Script.course script) (Script.activated script)

/-- Before any statement is read the reading means the empty script. -/
theorem means_initial :
  initial.Means []
  where
  useCase := rfl
  classes := rfl
  state := rfl
  sequence := rfl
  openClass := rfl
  follows := ⟨rfl, rfl, fun _ => rfl, rfl⟩

/-- A command to deactivate changes nothing but the activations and the complaints. -/
theorem deactivate_keeps (r : Reading) (line : ℕ) (participant : String) :
  ∃ activations, (r.deactivate line participant).model =
      { r.model with sequence := { r.model.sequence with activations := activations } }
    ∧ (r.deactivate line participant).openClass = r.openClass
  := by
  rw [deactivate]
  split
  · exact ⟨_, rfl, rfl⟩
  · exact ⟨r.model.sequence.activations, rfl, rfl⟩

namespace Means

variable {s : Statement}

/-- A command follows the course of the activations. -/
theorem activation (h : r.Means script) {command : ActivationCommand} {participant : String}
    (hs : (Statement.activation command participant).isPlain = true) :
  (r.perform (script.length + 1) (.activation command participant)).Means
    (script ++ [.activation command participant])
  := by
  have hmoment : r.model.sequence.moment = Script.momentAt script script.length := by
    rw [h.sequence, SequenceDiagram.moment_soFar]
  have hfollows : (r.perform (script.length + 1) (.activation command participant)).Follows
      (Script.course (script ++ [.activation command participant]))
      (Script.activated (script ++ [.activation command participant])) := by
    rw [Script.course_concat, Script.activated_concat, ← hmoment]
    cases command with
    | activate => exact h.follows.activate (script.length + 1) participant
    | deactivate => exact h.follows.deactivate (script.length + 1) participant
  obtain ⟨activations, hmodel, hopen⟩ : ∃ activations,
      (r.perform (script.length + 1) (.activation command participant)).model = { r.model with
        sequence := { r.model.sequence.give command participant with activations := activations } }
      ∧ (r.perform (script.length + 1) (.activation command participant)).openClass = r.openClass := by
    cases command with
    | activate => exact ⟨_, rfl, rfl⟩
    | deactivate => exact deactivate_keeps (r.adjustSequence _) _ _
  have hactivations := hfollows.activations
  refine ⟨?_, ?_, ?_, ?_, hopen.trans h.openClass, hfollows⟩
  · rw [hmodel, UseCaseDiagram.ofScript_concat]
    exact h.useCase
  · rw [hmodel, ClassDiagram.ofScript_concat script hs]
    exact h.classes
  · rw [hmodel, StateDiagram.ofScript_concat]
    exact h.state
  · rw [hmodel] at hactivations ⊢
    rw [SequenceDiagram.soFar_activation, ← hactivations, h.sequence]

/-- A statement that gives no command leaves the activations as they are. -/
theorem follows_concat (h : r.Means script) {next : Reading}
    (hcommand : ∀ line moment, s.toCommand? line moment = none)
    (hactivations : next.model.sequence.activations = r.model.sequence.activations)
    (hactive : next.active = r.active) (hcomplaints : next.complaints = r.complaints) :
  next.Follows (Script.course (script ++ [s])) (Script.activated (script ++ [s]))
  := by
  rw [Script.course_concat, Script.activated_concat, hcommand]
  refine ⟨?_, ?_, ?_, ?_⟩
  · rw [hactivations]
    exact h.follows.activations
  · rw [hcomplaints]
    exact h.follows.complaints
  · rw [hactive]
    exact h.follows.active
  · rw [hactive]
    exact h.follows.keys

/-- Carrying out the next statement of a script adds what it means. -/
theorem perform (h : r.Means script) (hs : s.isPlain = true) :
  (r.perform (script.length + 1) s).Means (script ++ [s])
  := by
  have huseCase := UseCaseDiagram.ofScript_concat script s
  have hclasses := ClassDiagram.ofScript_concat script hs
  have hstate := StateDiagram.ofScript_concat script s
  rw [← h.useCase] at huseCase
  rw [← h.classes] at hclasses
  rw [← h.state] at hstate
  cases s with
  | activation command participant => exact h.activation hs
  | openClass name => contradiction
  | message sender receiver text isAsync =>
    have hsequence := SequenceDiagram.soFar_message script sender receiver text isAsync
    rw [← h.sequence] at hsequence
    exact ⟨huseCase.symm, hclasses.symm, hstate.symm, hsequence.symm, h.openClass,
      h.follows_concat (fun _ _ => rfl) rfl rfl rfl⟩
  | _ =>
    exact ⟨huseCase.symm, hclasses.symm, hstate.symm,
      h.sequence.trans (SequenceDiagram.soFar_concat_of_none script rfl rfl fun _ _ => rfl).symm,
      h.openClass, h.follows_concat (fun _ _ => rfl) rfl rfl rfl⟩

end Means

/-- A further line is read behind all others. -/
theorem readFrom_concat (r : Reading) (number : ℕ) (lines : List (List Char)) (line : List Char) :
  r.readFrom number (lines ++ [line]) = (r.readFrom number lines).step (number + lines.length) line
  := by
  rw [readFrom_append]
  rfl

/-- The lines of plain statements are read as what they mean. -/
theorem means_readFrom (h : ∀ s ∈ script, s.isPlain = true) :
  (initial.readFrom 1 (script.map Statement.toLine)).Means script
  := by
  induction script using List.reverseRecOn with
  | nil => exact means_initial
  | append_singleton script s ih =>
    rw [List.forall_mem_append, List.forall_mem_singleton] at h
    have hread := ih h.1
    rw [List.map_append, List.map_singleton, readFrom_concat, step_toLine hread.openClass _ h.2,
      List.length_map, Nat.add_comm 1]
    exact hread.perform h.2

/-- The activations that are open at the end are those that last. -/
theorem Means.pending (h : r.Means script) :
  r.pending = Script.lasting script
  := by
  rw [Script.lasting, ← h.follows.keys, Catalog.keys, List.flatMap_map]
  apply List.flatMap_congr
  intro e he
  have hstack : e.2 = ((Script.course script).running.filter fun a => a.1 = e.1).map Prod.snd := by
    rw [← h.follows.active, Catalog.find?_eq_some_iff.mpr he, Option.getD_some]
  rw [hstack, ← List.map_reverse, ← List.filter_reverse, List.map_map]
  conv_rhs => rw [← List.map_id (List.filter _ _)]
  apply List.map_congr_left
  intro a ha
  have hname := of_decide_eq_true (List.mem_filter.mp ha).2
  rw [Function.comp_apply, ← hname]
  rfl

/-- At the end of a script the meaning is complete. -/
theorem Means.finish (h : r.Means script) :
  r.finish.model = .ofScript script ∧ r.finish.complaints = Complaint.ofScript script
  := by
  have hmoment : r.model.sequence.moment = Script.momentAt script script.length := by
    rw [h.sequence, SequenceDiagram.moment_soFar]
  rw [finish_eq, h.openClass]
  constructor
  · have hclosed := SequenceDiagram.foldl_activateFrom_numbered h.follows.activations r.pending
    dsimp only
    rw [hclosed, h.pending, hmoment, h.sequence, h.useCase, h.classes, h.state]
    rfl
  · dsimp only
    rw [h.pending, hmoment, h.follows.complaints, Option.toList_none, List.map_nil, List.append_nil]
    rfl

/-- The text that plain statements are printed as has the model that they mean, and all complaints are
about deactivations that meet no activation and activations that last to the end. -/
theorem ofText_print (h : ∀ s ∈ script, s.isPlain = true) :
  (ofText (Script.print script)).model = .ofScript script
    ∧ (ofText (Script.print script)).complaints = Complaint.ofScript script
  := by
  have hmeans := means_readFrom h
  have hlines : initial.readFrom 1 (Script.lines (Script.print script).toList)
      = initial.readFrom 1 (script.map Statement.toLine) := by
    rw [Script.print, String.toList_ofList]
    cases script with
    | nil => rfl
    | cons s rest =>
      have hne : (s :: rest).map Statement.toLine ≠ [] := List.cons_ne_nil _ _
      rw [Script.lines_unlines hne]
      intro line hline
      obtain ⟨t, ht, rfl⟩ := List.mem_map.mp hline
      apply Statement.not_mem_toLine (h t ht) rfl
      cases t
      all_goals simp [Statement.marks]
  rw [ofText, hlines]
  exact hmeans.finish

/-- Plain statements of every form. -/
def encounter : List Statement :=
  [.activation .deactivate "guest", .activation .activate "host", .message "guest" "host" "hello" true,
    .association "guest" "Arrive" false, .transition "*" "met" "hello" false,
    .relation .inheritance "Person" "Guest", .inlineClass "Person" ["name".toList, "greet()".toList]]

/-- Statements of every form are plain, and are read back with the complaints that belong to
them. -/
theorem ofText_print_encounter :
  (∀ s ∈ encounter, s.isPlain = true)
    ∧ (ofText (Script.print encounter)).model = .ofScript encounter
    ∧ (ofText (Script.print encounter)).complaints
      = [.unmatchedDeactivate 1 "guest", .neverDeactivated "host" 1]
  := by
  have hplain : ∀ s ∈ encounter, s.isPlain = true := by decide +kernel
  obtain ⟨hmodel, hcomplaints⟩ := ofText_print hplain
  exact ⟨hplain, hmodel, hcomplaints.trans (by decide)⟩

end Reading

end DiagramLayout
