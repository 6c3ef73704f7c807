import DiagramLayout.Proofs.Script.Grammar
import DiagramLayout.Proofs.Script.Line
import DiagramLayout.Script.Reading

/-!
# Plain statements are read as they are printed

The line of a plain statement is in normal form, and no form of statement that is tried before its own
fits it. The members of a class are read with the blanks that are printed around them, which does not
change what the class becomes.
-/

namespace DiagramLayout

open Script

/-! ### Plain names -/

namespace Script

variable {cs : List Char}

theorem isNameChar_of_isPlainChar {c : Char} (h : isPlainChar c = true) :
  isNameChar c = true
  := by
  rw [isNameChar, ← isPlainChar, h, Bool.true_or]

/-- A plain name is not empty, has only plain characters and is not one of the commands in any
case. -/
theorem isPlainName_iff :
  isPlainName cs = true ↔ cs ≠ [] ∧ (∀ c ∈ cs, isPlainChar c = true)
    ∧ cs.map Char.toLower ≠ "activate".toList ∧ cs.map Char.toLower ≠ "deactivate".toList
  := by
  simp only [isPlainName, Bool.and_eq_true, Bool.not_eq_true', List.isEmpty_eq_false_iff,
    List.all_eq_true, bne_iff_ne, and_assoc]

/-- A plain name is not empty. -/
theorem ne_nil_of_isPlainName (h : isPlainName cs = true) :
  cs ≠ []
  := (isPlainName_iff.mp h).1

/-- A plain name can be the name of a class. -/
theorem isNameChar_of_isPlainName (h : isPlainName cs = true) :
  ∀ c ∈ cs, isNameChar c = true
  := fun c hc => isNameChar_of_isPlainChar ((isPlainName_iff.mp h).2.1 c hc)

theorem not_mem_of_isPlainName (h : isPlainName cs = true) {c : Char} (hc : isNameChar c = false) :
  c ∉ cs
  := not_mem_name (isNameChar_of_isPlainName h) hc

/-- A plain name has no blanks around it. -/
theorem isTrim_of_isPlainName (h : isPlainName cs = true) :
  IsTrim cs
  := isTrim_of_isNameChar (isNameChar_of_isPlainName h)

/-- A plain name is no word for a command. -/
theorem toLower_ne_of_isPlainName (h : isPlainName cs = true) (command : ActivationCommand) :
  cs.map Char.toLower ≠ command.name.toList
  := by
  obtain ⟨-, -, hactivate, hdeactivate⟩ := isPlainName_iff.mp h
  cases command with
  | activate => exact hactivate
  | deactivate => exact hdeactivate

/-- A plain state is a plain name or the star. -/
theorem isPlainState_iff :
  isPlainState cs = true ↔ isPlainName cs = true ∨ cs = ['*']
  := by
  rw [isPlainState, Bool.or_eq_true, beq_iff_eq]

theorem ne_nil_of_isPlainState (h : isPlainState cs = true) :
  cs ≠ []
  := by
  rcases isPlainState_iff.mp h with h | rfl
  · exact ne_nil_of_isPlainName h
  · nofun

/-- Of the characters that no name has, a plain state may only be the star. -/
theorem not_mem_of_isPlainState (h : isPlainState cs = true) {c : Char} (hc : isNameChar c = false)
    (hstar : c ≠ '*') :
  c ∉ cs
  := by
  rcases isPlainState_iff.mp h with h | rfl
  · exact not_mem_of_isPlainName h hc
  · exact fun hmem => hstar (List.mem_singleton.mp hmem)

theorem isTrim_of_isPlainState (h : isPlainState cs = true) :
  IsTrim cs
  := by
  rcases isPlainState_iff.mp h with h | rfl
  · exact isTrim_of_isPlainName h
  · apply isTrim_singleton (c := '*') rfl

/-- A plain member is a plain name, or one with parentheses behind it. -/
theorem exists_of_isPlainMember (h : isPlainMember cs = true) :
  ∃ name, isPlainName name = true ∧ (cs = name ∨ cs = name ++ ['(', ')'])
  := by
  simp only [isPlainMember, Bool.or_eq_true, Bool.and_eq_true, beq_iff_eq] at h
  rcases h with h | ⟨hend, h⟩
  · exact ⟨cs, h, Or.inl rfl⟩
  · refine ⟨cs.take (cs.length - 2), h, Or.inr ?_⟩
    rw [← hend, List.take_append_drop]

theorem ne_nil_of_isPlainMember (h : isPlainMember cs = true) :
  cs ≠ []
  := by
  obtain ⟨name, hname, rfl | rfl⟩ := exists_of_isPlainMember h
  · exact ne_nil_of_isPlainName hname
  · exact List.append_ne_nil_of_right_ne_nil name (List.cons_ne_nil _ _)

/-- Of the characters that no name has, a plain member has at most the parentheses. -/
theorem not_mem_of_isPlainMember (h : isPlainMember cs = true) {c : Char}
    (hc : isNameChar c = false) (hmarks : c ∉ ['(', ')']) :
  c ∉ cs
  := by
  obtain ⟨name, hname, rfl | rfl⟩ := exists_of_isPlainMember h
  · exact not_mem_of_isPlainName hname hc
  · rw [List.mem_append, not_or]
    exact ⟨not_mem_of_isPlainName hname hc, hmarks⟩

theorem isTrim_of_isPlainMember (h : isPlainMember cs = true) :
  IsTrim cs
  := by
  apply isTrim_of_forall
  intro c hc
  obtain ⟨name, hname, rfl | rfl⟩ := exists_of_isPlainMember h
  · exact isBlank_of_isNameChar (isNameChar_of_isPlainName hname c hc)
  · rcases List.mem_append.mp hc with hc | hc
    · exact isBlank_of_isNameChar (isNameChar_of_isPlainName hname c hc)
    · rw [List.mem_pair] at hc
      rcases hc with rfl | rfl
      all_goals rfl

end Script

theorem trimmed_of_isPlainState {name : String} (h : isPlainState name.toList = true) :
  trimmed name.toList = name
  := by
  rw [trimmed, trim_eq (isTrim_of_isPlainState h), String.ofList_toList]

/-- A blank in front is trimmed away. -/
theorem trimmed_space (cs : List Char) :
  trimmed (' ' :: cs) = trimmed cs
  := rfl

theorem trimmed_of_isPlainName {name : String} (h : isPlainName name.toList = true) :
  trimmed name.toList = name
  := by
  rw [trimmed, trim_eq (isTrim_of_isPlainName h), String.ofList_toList]

namespace Script

variable {name : List Char}

/-- A line that begins with a plain name and a blank gives no command. -/
theorem activation?_name (h : isPlainName name = true) (rest : List Char) :
  activation? (name ++ ' ' :: rest) = none
  := by
  rw [Option.eq_none_iff_forall_ne_some]
  intro statement hstatement
  obtain ⟨command, hcommand⟩ := exists_of_activation? hstatement
  have hname : ∀ c ∈ name, (!isBlank c) = true := by
    intro c hc
    rw [isBlank_of_isNameChar (isNameChar_of_isPlainName h c hc), Bool.not_false]
  apply toLower_ne_of_isPlainName h command
  rw [← hcommand, List.takeWhile_append_of_pos hname, List.takeWhile_cons_of_neg, List.append_nil]
  exact Bool.false_ne_true

/-- A line that begins with a bracket gives no command. -/
theorem activation?_bracket (rest : List Char) :
  activation? ('[' :: rest) = none
  := rfl

/-- A command is read from its word and its participant. -/
theorem activation?_append (command : ActivationCommand) {participant : List Char}
    (h : participant ≠ []) :
  activation? (command.name.toList ++ ' ' :: participant)
    = some (.activation command (trimmed participant))
  := by
  have hcommand : command? (command.name.toList ++ ' ' :: participant)
      = some (command, ' ' :: participant) := by
    cases command
    all_goals rfl
  obtain ⟨c, rest, rfl⟩ := List.exists_cons_of_ne_nil h
  simp only [activation?, hcommand, Option.bind_eq_bind, Option.bind_some]
  rfl

end Script

/-! ### The lines of statements, part by part -/

namespace Statement

variable {c : Char} {line : List Char}

/-- The characters of a line that declares a class and its members. -/
theorem toLine_inlineClass (name : String) (members : List (List Char)) :
  (inlineClass name members).toLine = "class ".toList ++ name.toList
    ++ ' ' :: '\x7b' :: ((' ' :: (memberChars members ++ [' '])) ++ ['\x7d'])
  := by
  change "class ".toList ++ name.toList ++ [' ', '\x7b', ' '] ++ memberChars members
    ++ [' ', '\x7d'] = _
  simp only [List.append_assoc, List.cons_append, List.nil_append]

theorem toLine_relation (kind : RelationKind) (left right : String) :
  (relation kind left right).toLine = left.toList ++ ' ' :: kind.token ++ ' ' :: right.toList
  := rfl

theorem toLine_activation (command : ActivationCommand) (participant : String) :
  (activation command participant).toLine = command.name.toList ++ ' ' :: participant.toList
  := rfl

theorem toLine_association (actor useCase : String) (isAsync : Bool) :
  (association actor useCase isAsync).toLine
    = actor.toList ++ ' ' :: (arrowChars isAsync ++ ' ' :: '(' :: (useCase.toList ++ [')']))
  := by
  change actor.toList ++ ' ' :: arrowChars isAsync ++ [' ', '('] ++ useCase.toList ++ [')'] = _
  simp only [List.append_assoc, List.cons_append, List.nil_append]

/-- The characters of a line with a transition: an empty label is not written. -/
theorem toLine_transition (source target label : String) (isAsync : Bool) :
  (transition source target label isAsync).toLine
    = '[' :: (source.toList ++ ']' :: ' ' :: (arrowChars isAsync ++ ' ' :: '[' :: (target.toList
      ++ ']' :: (if label.isEmpty then [] else ':' :: ' ' :: label.toList))))
  := by
  change '[' :: source.toList ++ [']', ' '] ++ arrowChars isAsync ++ [' ', '['] ++ target.toList
    ++ ']' :: (if label.isEmpty then [] else [':', ' '] ++ label.toList) = _
  simp only [List.append_assoc, List.cons_append, List.nil_append]

/-- The characters of a line with a message. -/
theorem toLine_message (sender receiver text : String) (isAsync : Bool) :
  (message sender receiver text isAsync).toLine
    = sender.toList ++ ' ' :: (arrowChars isAsync
      ++ ' ' :: (receiver.toList ++ ':' :: ' ' :: text.toList))
  := by
  change sender.toList ++ ' ' :: arrowChars isAsync ++ ' ' :: receiver.toList ++ [':', ' ']
    ++ text.toList = _
  simp only [List.append_assoc, List.cons_append, List.nil_append]

theorem greater_mem_arrowChars (isAsync : Bool) :
  '>' ∈ arrowChars isAsync
  := by
  cases isAsync
  all_goals decide

theorem not_mem_arrowChars (hminus : c ≠ '-') (hgreater : c ≠ '>') (isAsync : Bool) :
  c ∉ arrowChars isAsync
  := by
  cases isAsync
  all_goals simp [arrowChars, hminus, hgreater]

/-- The token of a relation has no other marks than its own four. -/
theorem not_mem_token (hc : isNameChar c = false) (hless : c ≠ '<') (hbar : c ≠ '|') (hstar : c ≠ '*')
    (hminus : c ≠ '-') (kind : RelationKind) :
  c ∉ kind.token
  := by
  have hletter : c ≠ 'o' := by
    rintro rfl
    contradiction
  cases kind
  all_goals simp [RelationKind.token, hletter, hless, hbar, hstar, hminus]

/-- The words for the commands hold characters of names only. -/
theorem isNameChar_of_mem_command (command : ActivationCommand) :
  ∀ d ∈ command.name.toList, isNameChar d = true
  := by
  cases command
  all_goals exact List.all_eq_true.mp rfl

/-- The label of a transition is read from what is printed of it, which holds no special characters. -/
theorem exists_transitionLabel? {label : String}
    (h : label.isEmpty = true ∨ isPlainName label.toList = true) :
  ∃ tail text, (if label.isEmpty then [] else ':' :: ' ' :: label.toList) = tail
    ∧ transitionLabel? tail = some text ∧ trimmed text = label
    ∧ ∀ c, isNameChar c = false → c ≠ ' ' → c ≠ ':' → c ∉ tail
  := by
  rcases h with h | h
  · rw [if_pos h]
    refine ⟨[], [], rfl, rfl, ?_, fun c _ _ _ => List.not_mem_nil⟩
    exact (String.isEmpty_iff.mp h).symm
  · refine ⟨':' :: ' ' :: label.toList, ' ' :: label.toList, if_neg ?_, rfl, ?_, ?_⟩
    · rw [String.isEmpty_iff]
      rintro rfl
      exact ne_nil_of_isPlainName h rfl
    · rw [trimmed_space, trimmed_of_isPlainName h]
    · intro c hc hblank hcolon
      simp [hblank, hcolon, not_mem_of_isPlainName h hc]

/-- The characters that stand in the line of a statement apart from those of names. -/
def marks : Statement → List Char
  | inlineClass _ _ => [' ', '\x7b', '\x7d', ';', '(', ')']
  | openClass _ => [' ', '\x7b']
  | relation _ _ _ => [' ', '<', '|', '*', '-']
  | activation _ _ => [' ']
  | association _ _ _ => [' ', '-', '>', '(', ')']
  | transition _ _ _ _ => [' ', '-', '>', '[', ']', '*', ':']
  | message _ _ _ _ => [' ', '-', '>', ':']

/-- The members in one line bring blanks and semicolons between them, and no other characters. -/
theorem not_mem_memberChars {members : List (List Char)} (h : ∀ member ∈ members, c ∉ member)
    (hblank : c ≠ ' ') (hsemicolon : c ≠ ';') :
  c ∉ memberChars members
  := by
  induction members using memberChars.induct with
  | case1 => exact List.not_mem_nil
  | case2 member => exact h member List.mem_cons_self
  | case3 member rest hne ih =>
    obtain ⟨hfirst, hrest⟩ := List.forall_mem_cons.mp h
    rw [memberChars.eq_3 _ _ hne]
    simp [hfirst, hsemicolon, hblank, ih hrest]

/-- A character that is neither in a name nor one of the marks is not in the line that opens a
class. -/
theorem not_mem_toLine_openClass {name : String} (hname : ∀ d ∈ name.toList, isNameChar d = true)
    (hc : isNameChar c = false) (hmarks : c ∉ (openClass name).marks) :
  c ∉ (openClass name).toLine
  := by
  simp only [marks, List.mem_cons, List.not_mem_nil, or_false, not_or] at hmarks
  have hword : c ∉ "class".toList := not_mem_name (List.all_eq_true.mp rfl) hc
  change c ∉ "class".toList ++ [' '] ++ name.toList ++ [' ', '\x7b']
  simp only [List.mem_append, List.mem_cons, List.not_mem_nil, hword, not_mem_name hname hc, hmarks,
    or_self, not_false_eq_true]

/-- A character that is in no member and not one of the marks is not in the line of a class. -/
theorem not_mem_toLine_inlineClass {name : String} {members : List (List Char)}
    (hname : ∀ d ∈ name.toList, isNameChar d = true) (hmembers : ∀ member ∈ members, c ∉ member)
    (hc : isNameChar c = false) (hblank : c ≠ ' ') (hopening : c ≠ '\x7b') (hclosing : c ≠ '\x7d')
    (hsemicolon : c ≠ ';') :
  c ∉ (inlineClass name members).toLine
  := by
  have hword : c ∉ "class ".toList := by
    change c ∉ "class".toList ++ [' ']
    rw [List.mem_append, not_or, List.mem_singleton]
    exact ⟨not_mem_name (List.all_eq_true.mp rfl) hc, hblank⟩
  rw [toLine_inlineClass]
  simp only [List.mem_append, List.mem_cons, List.not_mem_nil, hword, not_mem_name hname hc, hblank,
    hopening, hclosing, not_mem_memberChars hmembers hblank hsemicolon, or_self, not_false_eq_true]

/-- In the line of a plain statement there are no other characters than those of names and its marks. -/
theorem not_mem_toLine {s : Statement} (h : s.isPlain = true) (hc : isNameChar c = false)
    (hmarks : c ∉ s.marks) :
  c ∉ s.toLine
  := by
  cases s with
  | inlineClass name members =>
    simp only [isPlain, Bool.and_eq_true, List.all_eq_true] at h
    obtain ⟨hname, hmembers⟩ := h
    simp only [marks, List.mem_cons, List.not_mem_nil, or_false, not_or] at hmarks
    obtain ⟨hblank, hopening, hclosing, hsemicolon, hparentheses⟩ := hmarks
    have hinside : ∀ member ∈ members, c ∉ member := by
      intro member hmember
      apply not_mem_of_isPlainMember (hmembers member hmember) hc
      simp [hparentheses]
    exact not_mem_toLine_inlineClass (isNameChar_of_isPlainName hname) hinside hc hblank hopening
      hclosing hsemicolon
  | openClass name => contradiction
  | relation kind left right =>
    simp only [isPlain, Bool.and_eq_true] at h
    simp only [marks, List.mem_cons, List.not_mem_nil, or_false, not_or] at hmarks
    obtain ⟨hblank, hless, hbar, hstar, hminus⟩ := hmarks
    have htoken := not_mem_token hc hless hbar hstar hminus kind
    rw [toLine_relation]
    simp [not_mem_of_isPlainName h.1 hc, not_mem_of_isPlainName h.2 hc, htoken, hblank]
  | activation command participant =>
    have hword := not_mem_name (isNameChar_of_mem_command command) hc
    have hblank : c ≠ ' ' := List.ne_of_not_mem_cons hmarks
    rw [toLine_activation]
    simp only [List.mem_append, List.mem_cons, hword, not_mem_of_isPlainName h hc, hblank, or_self,
      not_false_eq_true]
  | association actor useCase isAsync =>
    simp only [isPlain, Bool.and_eq_true] at h
    simp only [marks, List.mem_cons, List.not_mem_nil, or_false, not_or] at hmarks
    obtain ⟨hblank, hminus, hgreater, hopening, hclosing⟩ := hmarks
    rw [toLine_association]
    simp [not_mem_of_isPlainName h.1 hc, not_mem_of_isPlainName h.2 hc, hblank, hopening, hclosing,
      not_mem_arrowChars hminus hgreater]
  | transition source target label isAsync =>
    simp only [isPlain, Bool.and_eq_true, Bool.or_eq_true] at h
    obtain ⟨⟨hsource, htarget⟩, hlabel⟩ := h
    simp only [marks, List.mem_cons, List.not_mem_nil, or_false, not_or] at hmarks
    obtain ⟨hblank, hminus, hgreater, hopening, hclosing, hstar, hcolon⟩ := hmarks
    obtain ⟨tail, text, htail, -, -, hnotTail⟩ := exists_transitionLabel? hlabel
    rw [toLine_transition, htail]
    simp [not_mem_of_isPlainState hsource hc hstar, not_mem_of_isPlainState htarget hc hstar,
      hnotTail c hc hblank hcolon, hblank, hopening, hclosing, not_mem_arrowChars hminus hgreater]
  | message sender receiver text isAsync =>
    simp only [isPlain, Bool.and_eq_true] at h
    simp only [marks, List.mem_cons, List.not_mem_nil, or_false, not_or] at hmarks
    obtain ⟨hblank, hminus, hgreater, hcolon⟩ := hmarks
    rw [toLine_message]
    simp [not_mem_of_isPlainName h.1.1 hc, not_mem_of_isPlainName h.1.2 hc,
      not_mem_of_isPlainName h.2 hc, hblank, hcolon, not_mem_arrowChars hminus hgreater]

/-! ### Statements -/

/-- A line with an arrow is no relation. -/
theorem relation?_eq_none (h : '>' ∈ line) :
  relation? line = none
  := by
  rw [Option.eq_none_iff_forall_ne_some]
  intro statement hstatement
  exact (mem_of_relation? hstatement).2 h

/-- Three forms are left for a line that has an arrow, no brace and no command. -/
theorem ofLine?_of_arrow (hbrace : '\x7b' ∉ line) (hgreater : '>' ∈ line)
    (hactivation : activation? line = none) :
  ofLine? line = [association?, transition?, message?].findSome? fun form => form line
  := by
  simp only [ofLine?, forms, List.findSome?_cons, inlineClass?_eq_none hbrace,
    openClass?_eq_none hbrace, relation?_eq_none hgreater, hactivation]

/-- A plain relation is read back from its line. -/
theorem ofLine?_relation {kind : RelationKind} {left right : String}
    (h : (relation kind left right).isPlain = true) :
  ofLine? (relation kind left right).toLine = some (relation kind left right)
  := by
  have hbrace := not_mem_toLine h (c := '\x7b') rfl (by simp [marks])
  simp only [isPlain, Bool.and_eq_true] at h
  obtain ⟨hleft, hright⟩ := h
  have hread := relation?_append kind (ne_nil_of_isPlainName hleft)
    (isNameChar_of_isPlainName hleft) (ne_nil_of_isPlainName hright)
    (isNameChar_of_isPlainName hright)
  rw [String.ofList_toList, String.ofList_toList, ← toLine_relation] at hread
  simp only [ofLine?, forms, List.findSome?_cons, inlineClass?_eq_none hbrace,
    openClass?_eq_none hbrace, hread]

/-- A plain activation command is read back from its line. -/
theorem ofLine?_activation {command : ActivationCommand} {participant : String}
    (h : (activation command participant).isPlain = true) :
  ofLine? (activation command participant).toLine = some (activation command participant)
  := by
  have hbrace := not_mem_toLine h (c := '\x7b') rfl (by simp [marks])
  have hminus := not_mem_toLine h (c := '-') rfl (by simp [marks])
  have hrelation : relation? (activation command participant).toLine = none := by
    rw [Option.eq_none_iff_forall_ne_some]
    intro statement hstatement
    exact hminus (mem_of_relation? hstatement).1
  have hread := activation?_append command (ne_nil_of_isPlainName h)
  rw [trimmed_of_isPlainName h, ← toLine_activation] at hread
  simp only [ofLine?, forms, List.findSome?_cons, inlineClass?_eq_none hbrace,
    openClass?_eq_none hbrace, hrelation, hread]

/-- A plain association is read back from its line. -/
theorem ofLine?_association {actor useCase : String} {isAsync : Bool}
    (h : (association actor useCase isAsync).isPlain = true) :
  ofLine? (association actor useCase isAsync).toLine = some (association actor useCase isAsync)
  := by
  have hbrace := not_mem_toLine h (c := '\x7b') rfl (by simp [marks])
  have hgreater : '>' ∈ (association actor useCase isAsync).toLine := by
    rw [toLine_association]
    simp [greater_mem_arrowChars]
  simp only [isPlain, Bool.and_eq_true] at h
  obtain ⟨hactor, huseCase⟩ := h
  have hactivation := activation?_name hactor
    (arrowChars isAsync ++ ' ' :: '(' :: (useCase.toList ++ [')']))
  have hread := association?_append isAsync (ne_nil_of_isPlainName hactor)
    (isNameChar_of_isPlainName hactor) (ne_nil_of_isPlainName huseCase)
    (isNameChar_of_isPlainName huseCase)
  rw [← toLine_association] at hactivation
  rw [trimmed_of_isPlainName hactor, trimmed_of_isPlainName huseCase, ← toLine_association] at hread
  rw [ofLine?_of_arrow hbrace hgreater hactivation]
  simp only [List.findSome?_cons, hread]

/-- A plain transition is read back from its line. -/
theorem ofLine?_transition {source target label : String} {isAsync : Bool}
    (h : (transition source target label isAsync).isPlain = true) :
  ofLine? (transition source target label isAsync).toLine
    = some (transition source target label isAsync)
  := by
  have hbrace := not_mem_toLine h (c := '\x7b') rfl (by simp [marks])
  have hparenthesis := not_mem_toLine h (c := '(') rfl (by simp [marks])
  have hgreater : '>' ∈ (transition source target label isAsync).toLine := by
    rw [toLine_transition]
    simp [greater_mem_arrowChars]
  have hactivation : activation? (transition source target label isAsync).toLine = none := by
    rw [toLine_transition, activation?_bracket]
  simp only [isPlain, Bool.and_eq_true, Bool.or_eq_true] at h
  obtain ⟨⟨hsource, htarget⟩, hlabel⟩ := h
  obtain ⟨tail, text, htail, htext, htrimmed, hnotTail⟩ := exists_transitionLabel? hlabel
  have hread := transition?_append isAsync (ne_nil_of_isPlainState hsource)
    (not_mem_of_isPlainState hsource (c := ']') rfl (by decide))
    (not_mem_of_isPlainState hsource (c := '-') rfl (by decide)) (ne_nil_of_isPlainState htarget)
    (not_mem_of_isPlainState htarget (c := ']') rfl (by decide))
    (not_mem_of_isPlainState htarget (c := '-') rfl (by decide)) htext
    (hnotTail '-' rfl (by decide) (by decide))
  rw [trimmed_of_isPlainState hsource, trimmed_of_isPlainState htarget, htrimmed, ← htail,
    ← toLine_transition] at hread
  rw [ofLine?_of_arrow hbrace hgreater hactivation]
  simp only [List.findSome?_cons, association?_eq_none hparenthesis, hread]

/-- A plain message is read back from its line. -/
theorem ofLine?_message {sender receiver text : String} {isAsync : Bool}
    (h : (message sender receiver text isAsync).isPlain = true) :
  ofLine? (message sender receiver text isAsync).toLine
    = some (message sender receiver text isAsync)
  := by
  have hbrace := not_mem_toLine h (c := '\x7b') rfl (by simp [marks])
  have hparenthesis := not_mem_toLine h (c := '(') rfl (by simp [marks])
  have hbracket := not_mem_toLine h (c := '[') rfl (by simp [marks])
  have hgreater : '>' ∈ (message sender receiver text isAsync).toLine := by
    rw [toLine_message]
    simp [greater_mem_arrowChars]
  have htransition : transition? (message sender receiver text isAsync).toLine = none := by
    apply transition?_eq_none
    intro hhead
    exact hbracket (List.mem_of_mem_head? hhead)
  simp only [isPlain, Bool.and_eq_true] at h
  obtain ⟨⟨hsender, hreceiver⟩, htext⟩ := h
  have hactivation := activation?_name hsender
    (arrowChars isAsync ++ ' ' :: (receiver.toList ++ ':' :: ' ' :: text.toList))
  have hne : ' ' :: text.toList ≠ [] := List.cons_ne_nil _ _
  have hread := message?_append isAsync (ne_nil_of_isPlainName hsender)
    (isNameChar_of_isPlainName hsender) (ne_nil_of_isPlainName hreceiver)
    (isNameChar_of_isPlainName hreceiver) hne
  rw [← toLine_message] at hactivation
  rw [trimmed_of_isPlainName hsender, trimmed_of_isPlainName hreceiver, trimmed_space,
    trimmed_of_isPlainName htext, ← toLine_message] at hread
  rw [ofLine?_of_arrow hbrace hgreater hactivation]
  simp only [List.findSome?_cons, association?_eq_none hparenthesis, htransition, hread]

/-! ### Classes -/

theorem isBlank_of_mem_space :
  ∀ c ∈ [' '], isBlank c = true
  := by
  intro c hc
  obtain rfl := List.mem_singleton.mp hc
  rfl

/-- Blanks around a member do not change what is added. -/
theorem addMember_padded (c : ClassNode) (member : List Char) {back : List Char}
    (hback : ∀ b ∈ back, isBlank b = true) :
  c.addMember (' ' :: (member ++ back)) = c.addMember member
  := by
  have hequal : trim (' ' :: (member ++ back)) = trim member :=
    trim_padded isBlank_of_mem_space hback member
  rw [ClassNode.addMember, hequal, ← ClassNode.addMember]

/-- The members that are printed between blanks and semicolons are read with the blanks, and added
as they are. -/
theorem addMembers_splitMembers (c : ClassNode) {members : List (List Char)}
    (h : ∀ member ∈ members, ';' ∉ member) :
  c.addMembers (splitMembers (' ' :: (memberChars members ++ [' ']))) = c.addMembers members
  := by
  have hsemicolon : ∀ member : List Char, ';' ∉ member → ';' ∉ ' ' :: member := by
    intro member hmember
    rw [List.mem_cons, not_or]
    exact ⟨by decide, hmember⟩
  induction members using memberChars.induct generalizing c with
  | case1 => rfl
  | case2 member =>
    have hmember := h member List.mem_cons_self
    have hsplit : splitMembers (' ' :: (member ++ [' '])) = [' ' :: (member ++ [' '])] := by
      apply splitMembers_of_not_mem
      rw [← List.cons_append, List.mem_append, not_or]
      exact ⟨hsemicolon member hmember, by decide⟩
    rw [memberChars, hsplit]
    exact addMember_padded c member isBlank_of_mem_space
  | case3 member rest hne ih =>
    obtain ⟨hmember, hrest⟩ := List.forall_mem_cons.mp h
    have hsplit : splitMembers (' ' :: (memberChars (member :: rest) ++ [' ']))
        = (' ' :: member) :: splitMembers (' ' :: (memberChars rest ++ [' '])) := by
      rw [← splitMembers_append (hsemicolon member hmember), memberChars.eq_3 _ _ hne]
      simp only [List.append_assoc, List.cons_append]
    have hadd : c.addMember (' ' :: member) = c.addMember member := by
      have hnone : ∀ b ∈ ([] : List Char), isBlank b = true := nofun
      have hpadded := addMember_padded c member hnone
      rw [List.append_nil] at hpadded
      exact hpadded
    rw [hsplit, ClassNode.addMembers, List.foldl_cons, hadd]
    exact ih (c.addMember member) hrest

/-- A class with a name is read back from its line, and its members by splitting what is between the
braces. -/
theorem ofLine?_inlineClass {name : String} (hne : name.toList ≠ [])
    (hname : ∀ c ∈ name.toList, isNameChar c = true) (members : List (List Char)) :
  ofLine? (inlineClass name members).toLine
    = some (inlineClass name (splitMembers (' ' :: (memberChars members ++ [' ']))))
  := by
  have hread := inlineClass?_append hne hname (' ' :: (memberChars members ++ [' ']))
  rw [String.ofList_toList, ← toLine_inlineClass] at hread
  simp only [ofLine?, forms, List.findSome?_cons, hread]

/-- The blanks around members belong to them. -/
example :
  ofLine? "class Person \x7b name; greet() \x7d".toList
    = some (inlineClass "Person" [" name".toList, " greet() ".toList])
  := by
  decide +kernel

/-! ### Normal lines -/

theorem isTrim_toLine_inlineClass (name : String) (members : List (List Char)) :
  IsTrim (inlineClass name members).toLine
  := by
  have hword : IsTrim "class".toList := isTrim_of_isNameChar (List.all_eq_true.mp rfl)
  have hbetween := hword.between (by decide) (isTrim_singleton (c := '\x7d') rfl)
    (List.cons_ne_nil _ _)
    (' ' :: (name.toList ++ ' ' :: '\x7b' :: (' ' :: (memberChars members ++ [' ']))))
  simpa [toLine_inlineClass] using hbetween

theorem isTrim_toLine_openClass (name : String) :
  IsTrim (openClass name).toLine
  := by
  have hword : IsTrim "class".toList := isTrim_of_isNameChar (List.all_eq_true.mp rfl)
  have hbetween := hword.between (by decide) (isTrim_singleton (c := '\x7b') rfl)
    (List.cons_ne_nil _ _) (' ' :: (name.toList ++ [' ']))
  rw [List.append_assoc, List.cons_append, List.append_assoc] at hbetween
  exact hbetween

/-- There is no blank at the ends of the line of a plain statement. -/
theorem isTrim_toLine {s : Statement} (h : s.isPlain = true) :
  IsTrim s.toLine
  := by
  cases s with
  | inlineClass name members => apply isTrim_toLine_inlineClass
  | openClass name => contradiction
  | relation kind left right =>
    simp only [isPlain, Bool.and_eq_true] at h
    have hbetween := (isTrim_of_isPlainName h.1).between (ne_nil_of_isPlainName h.1)
      (isTrim_of_isPlainName h.2) (ne_nil_of_isPlainName h.2) (' ' :: (kind.token ++ [' ']))
    simpa [toLine_relation] using hbetween
  | activation command participant =>
    have hword := isTrim_of_isNameChar (isNameChar_of_mem_command command)
    have hne : command.name.toList ≠ [] := by
      cases command
      all_goals simp [ActivationCommand.name]
    have hbetween := hword.between hne (isTrim_of_isPlainName h) (ne_nil_of_isPlainName h) [' ']
    simpa only [toLine_activation, List.append_assoc, List.singleton_append] using hbetween
  | association actor useCase isAsync =>
    simp only [isPlain, Bool.and_eq_true] at h
    have hbetween := (isTrim_of_isPlainName h.1).between (ne_nil_of_isPlainName h.1)
      (isTrim_singleton (c := ')') rfl) (List.cons_ne_nil _ _)
      (' ' :: (arrowChars isAsync ++ ' ' :: '(' :: useCase.toList))
    simpa [toLine_association] using hbetween
  | transition source target label isAsync =>
    simp only [isPlain, Bool.and_eq_true, Bool.or_eq_true] at h
    rw [toLine_transition]
    split_ifs with hempty
    · have hbetween := (isTrim_singleton (c := '[') rfl).between (List.cons_ne_nil _ _)
        (isTrim_singleton (c := ']') rfl) (List.cons_ne_nil _ _)
        (source.toList ++ ']' :: ' ' :: (arrowChars isAsync ++ ' ' :: '[' :: target.toList))
      simpa using hbetween
    · have hlabel := h.2.resolve_left hempty
      have hbetween := (isTrim_singleton (c := '[') rfl).between (List.cons_ne_nil _ _)
        (isTrim_of_isPlainName hlabel) (ne_nil_of_isPlainName hlabel)
        (source.toList ++ ']' :: ' ' :: (arrowChars isAsync
          ++ ' ' :: '[' :: (target.toList ++ [']', ':', ' '])))
      simpa using hbetween
  | message sender receiver text isAsync =>
    simp only [isPlain, Bool.and_eq_true] at h
    have hbetween := (isTrim_of_isPlainName h.1.1).between (ne_nil_of_isPlainName h.1.1)
      (isTrim_of_isPlainName h.2) (ne_nil_of_isPlainName h.2)
      (' ' :: (arrowChars isAsync ++ ' ' :: (receiver.toList ++ [':', ' '])))
    simpa [toLine_message] using hbetween

/-- The line of a plain statement is in normal form. -/
theorem normalize_toLine {s : Statement} (h : s.isPlain = true) :
  Script.normalize s.toLine = s.toLine
  := by
  have hslash : '/' ∉ s.toLine := by
    apply not_mem_toLine h rfl
    cases s
    all_goals simp [marks]
  have hhash : '#' ∉ s.toLine := by
    apply not_mem_toLine h rfl
    cases s
    all_goals simp [marks]
  rw [normalize_eq_trim (not_infix_of_not_mem hslash) hhash, trim_eq (isTrim_toLine h)]

/-- A plain statement is not written as an empty line. -/
theorem toLine_ne_nil {s : Statement} (h : s.isPlain = true) :
  s.toLine ≠ []
  := by
  cases s with
  | openClass name => contradiction
  | activation command participant =>
    cases command
    all_goals exact List.cons_ne_nil _ _
  | _ =>
    simp [toLine_inlineClass, toLine_relation, toLine_association, toLine_transition,
      toLine_message]

end Statement

namespace Reading

/-- The line of a plain statement is read as the statement, unless a class is open. -/
theorem step_toLine {r : Reading} (hopen : r.openClass = none) (number : ℕ) {s : Statement}
    (h : s.isPlain = true) :
  r.step number s.toLine = r.perform number s
  := by
  have hread : ∃ t, Statement.ofLine? s.toLine = some t
      ∧ r.perform number t = r.perform number s := by
    cases s with
    | inlineClass name members =>
      simp only [Statement.isPlain, Bool.and_eq_true, List.all_eq_true] at h
      have hsemicolon : ∀ member ∈ members, ';' ∉ member := fun member hmember =>
        not_mem_of_isPlainMember (h.2 member hmember) rfl (by decide)
      refine ⟨_, Statement.ofLine?_inlineClass (ne_nil_of_isPlainName h.1)
        (isNameChar_of_isPlainName h.1) members, ?_⟩
      simp only [perform, Statement.addMembers_splitMembers _ hsemicolon]
    | openClass name => contradiction
    | relation kind left right => exact ⟨_, Statement.ofLine?_relation h, rfl⟩
    | activation command participant => exact ⟨_, Statement.ofLine?_activation h, rfl⟩
    | association actor useCase isAsync => exact ⟨_, Statement.ofLine?_association h, rfl⟩
    | transition source target label isAsync => exact ⟨_, Statement.ofLine?_transition h, rfl⟩
    | message sender receiver text isAsync => exact ⟨_, Statement.ofLine?_message h, rfl⟩
  obtain ⟨t, ht, hperform⟩ := hread
  have hnonempty : ¬s.toLine.isEmpty = true := by
    rw [List.isEmpty_iff]
    exact Statement.toLine_ne_nil h
  simp only [step, Statement.normalize_toLine h, if_neg hnonempty, readLine, hopen, ht, hperform]

end Reading

end DiagramLayout
