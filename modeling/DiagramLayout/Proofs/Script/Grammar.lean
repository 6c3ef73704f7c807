import DiagramLayout.Proofs.Text.Blank
import DiagramLayout.Script.Grammar
import DiagramLayout.Script.Printer
import Mathlib

/-!
# What the readers of lines need

Each reader is described from two sides: what a text must hold for the reader to fit, which tells
where it does not, and what the reader finds in a text put together from its parts.
-/

namespace DiagramLayout.Script

variable {cs name rest front text : List Char} {statement : Statement} {c : Char}

/-! ### Names of classes -/

/-- No name has a blank in it. -/
theorem isBlank_of_isNameChar (h : isNameChar c = true) :
  isBlank c = false
  := by
  simp only [isNameChar, Char.isAlphanum, Char.isAlpha, Char.isUpper, Char.isLower, Char.isDigit,
    Bool.or_eq_true, Bool.and_eq_true, decide_eq_true_eq, beq_iff_eq, UInt32.le_iff_toNat_le] at h
  change ((((65 ≤ c.toNat ∧ c.toNat ≤ 90) ∨ (97 ≤ c.toNat ∧ c.toNat ≤ 122))
    ∨ (48 ≤ c.toNat ∧ c.toNat ≤ 57)) ∨ c = '_') ∨ (0x600 ≤ c.toNat ∧ c.toNat ≤ 0x6ff) at h
  rcases h with (h | rfl) | h
  · simp only [isBlank, Bool.or_eq_false_iff, Bool.and_eq_false_iff, decide_eq_false_iff_not,
      beq_eq_false_iff_ne]
    omega
  · rfl
  · simp only [isBlank, Bool.or_eq_false_iff, Bool.and_eq_false_iff, decide_eq_false_iff_not,
      beq_eq_false_iff_ne]
    omega

/-- A name has no blanks around it. -/
theorem isTrim_of_isNameChar (h : ∀ c ∈ name, isNameChar c = true) :
  IsTrim name
  := isTrim_of_forall fun c hc => isBlank_of_isNameChar (h c hc)

/-- The name of a class stands in front and has no other characters than those of names. -/
theorem eq_append_of_className? (h : className? cs = some (name, rest)) :
  cs = name ++ rest ∧ ∀ c ∈ name, isNameChar c = true
  := by
  rw [className?, List.span_eq_takeWhile_dropWhile] at h
  split at h
  · contradiction
  · obtain ⟨rfl, rfl⟩ := Prod.mk.inj (Option.some.inj h)
    exact ⟨List.takeWhile_append_dropWhile.symm, fun c hc => List.mem_takeWhile_imp hc⟩

theorem not_mem_name (hname : ∀ c ∈ name, isNameChar c = true) (hc : isNameChar c = false) :
  c ∉ name
  := by
  intro hmem
  rw [hname c hmem] at hc
  contradiction

/-- A name is found in front of what cannot continue it. -/
theorem className?_append (hne : name ≠ []) (hname : ∀ c ∈ name, isNameChar c = true)
    (hrest : ∀ c ∈ rest.head?, isNameChar c = false) :
  className? (name ++ rest) = some (name, rest)
  := by
  have hspan : (name ++ rest).span isNameChar = (name, rest) := by
    rw [List.span_eq_takeWhile_dropWhile, List.takeWhile_append_of_pos hname,
      List.dropWhile_append_of_pos hname]
    cases rest with
    | nil => rw [List.takeWhile_nil, List.dropWhile_nil, List.append_nil]
    | cons c rest =>
      have hc : ¬isNameChar c = true := Bool.not_eq_true _ ▸ hrest c rfl
      rw [List.takeWhile_cons_of_neg hc, List.dropWhile_cons_of_neg hc, List.append_nil]
  rw [className?, hspan]
  split
  · rename_i h
    exact absurd (Prod.mk.inj h).1 hne
  · rfl

/-! ### Parts of lines -/

theorem dropBlanks_subset (cs : List Char) :
  dropBlanks cs ⊆ cs
  := (List.dropWhile_suffix isBlank).subset

theorem dropBlanks_space (cs : List Char) :
  dropBlanks (' ' :: cs) = dropBlanks cs
  := rfl

/-- In front of a name there are no blanks to drop. -/
theorem dropBlanks_name (hne : name ≠ []) (hname : ∀ c ∈ name, isNameChar c = true)
    (rest : List Char) :
  dropBlanks (name ++ rest) = name ++ rest
  := by
  apply dropBlanks_of_head
  intro c hc
  obtain ⟨first, others, rfl⟩ := List.exists_cons_of_ne_nil hne
  obtain rfl := Option.some.inj hc
  exact isBlank_of_isNameChar (hname _ List.mem_cons_self)

/-- Only blanks are dropped. -/
theorem isBlank_or_mem_dropBlanks (h : c ∈ cs) :
  isBlank c = true ∨ c ∈ dropBlanks cs
  := by
  rw [← List.takeWhile_append_dropWhile (p := isBlank) (l := cs), List.mem_append] at h
  exact h.imp_left List.mem_takeWhile_imp

theorem subset_of_after? {word : List Char} (h : after? word cs = some rest) :
  rest ⊆ cs
  := by
  rw [(after?_eq_some_iff word cs rest).mp h]
  apply List.subset_append_right

theorem subset_of_className? (h : className? cs = some (name, rest)) :
  rest ⊆ cs
  := by
  rw [(eq_append_of_className? h).1]
  apply List.subset_append_right

/-! ### Classes -/

/-- What stands behind the head of a class is a part of the line. -/
theorem subset_of_classHead? (h : classHead? cs = some (name, rest)) :
  rest ⊆ cs
  := by
  simp only [classHead?, Option.bind_eq_bind, Option.bind_eq_some_iff] at h
  obtain ⟨behind, hbehind, h⟩ := h
  split_ifs at h
  · contradiction
  · obtain ⟨found, hfound, heq⟩ := Option.bind_eq_some_iff.mp h
    obtain ⟨-, rfl⟩ := Prod.mk.inj (Option.some.inj heq)
    calc
      dropBlanks found.2 ⊆ found.2 := dropBlanks_subset found.2
      _ ⊆ dropBlanks behind := subset_of_className? hfound
      _ ⊆ behind := dropBlanks_subset behind
      _ ⊆ cs := subset_of_after? hbehind

/-- A class on one line has an opening brace. -/
theorem inlineClass?_eq_none (h : '\x7b' ∉ cs) :
  inlineClass? cs = none
  := by
  rw [Option.eq_none_iff_forall_ne_some]
  intro statement hstatement
  simp only [inlineClass?, Option.bind_eq_bind, Option.bind_eq_some_iff] at hstatement
  obtain ⟨head, hhead, inside, hinside, -⟩ := hstatement
  apply h (subset_of_classHead? hhead _)
  rw [(after?_eq_some_iff _ _ _).mp hinside]
  apply List.mem_cons_self

/-- Only a line with a brace can open a class. -/
theorem openClass?_eq_none (h : '\x7b' ∉ cs) :
  openClass? cs = none
  := by
  rw [Option.eq_none_iff_forall_ne_some]
  intro statement hstatement
  simp only [openClass?, Option.bind_eq_bind, Option.bind_eq_some_iff] at hstatement
  obtain ⟨head, hhead, hrest⟩ := hstatement
  split_ifs at hrest with hbrace
  apply h (subset_of_classHead? hhead _)
  rw [hbrace]
  apply List.mem_singleton_self

/-- The keyword and a name in front of a brace are read as the head of a class. -/
theorem classHead?_append (hne : name ≠ []) (hname : ∀ c ∈ name, isNameChar c = true)
    (rest : List Char) :
  classHead? ("class ".toList ++ name ++ ' ' :: '\x7b' :: rest) = some (name, '\x7b' :: rest)
  := by
  have hafter : after? ['c', 'l', 'a', 's', 's'] ("class ".toList ++ name ++ ' ' :: '\x7b' :: rest)
      = some (' ' :: (name ++ ' ' :: '\x7b' :: rest)) := by
    rw [List.append_assoc]
    rfl
  have hstart : dropBlanks (' ' :: (name ++ ' ' :: '\x7b' :: rest)) = name ++ ' ' :: '\x7b' :: rest := by
    rw [dropBlanks_space, dropBlanks_name hne hname]
  have hlength : (name ++ ' ' :: '\x7b' :: rest).length
      ≠ (' ' :: (name ++ ' ' :: '\x7b' :: rest)).length := by
    rw [List.length_cons]
    omega
  have hread : className? (name ++ ' ' :: '\x7b' :: rest) = some (name, ' ' :: '\x7b' :: rest) := by
    apply className?_append hne hname
    intro c hc
    obtain rfl := Option.some.inj hc
    rfl
  simp only [classHead?, hafter, Option.bind_eq_bind, Option.bind_some, hstart, if_neg hlength, hread]
  rfl

theorem beforeLast?_concat (c : Char) (cs : List Char) :
  beforeLast? c (cs ++ [c]) = some cs
  := by
  rw [beforeLast?, List.getLast?_concat, if_pos rfl, List.dropLast_concat]

/-- A class on one line is read from its name and what stands in its braces. -/
theorem inlineClass?_append (hne : name ≠ []) (hname : ∀ c ∈ name, isNameChar c = true)
    (body : List Char) :
  inlineClass? ("class ".toList ++ name ++ ' ' :: '\x7b' :: (body ++ ['\x7d']))
    = some (.inlineClass (String.ofList name) (splitMembers body))
  := by
  have hinside : after? ['\x7b'] ('\x7b' :: (body ++ ['\x7d'])) = some (body ++ ['\x7d']) := rfl
  simp only [inlineClass?, classHead?_append hne hname, Option.bind_eq_bind, Option.bind_some, hinside,
    beforeLast?_concat]
  rfl

/-- A text without semicolons is a single member. -/
theorem splitMembers_of_not_mem (h : ';' ∉ text) :
  splitMembers text = [text]
  := by
  induction text with
  | nil => rfl
  | cons c text ih =>
    rw [List.mem_cons, not_or] at h
    rw [splitMembers.eq_3 c text (Ne.symm h.1), ih h.2]

/-- The first member ends in front of the first semicolon. -/
theorem splitMembers_append (h : ';' ∉ front) (rest : List Char) :
  splitMembers (front ++ ';' :: rest) = front :: splitMembers rest
  := by
  induction front with
  | nil => rfl
  | cons c front ih =>
    rw [List.mem_cons, not_or] at h
    rw [List.cons_append, splitMembers.eq_3 c _ (Ne.symm h.1), ih h.2]

/-! ### Relations -/

/-- A line that begins with a relation begins with its token. -/
theorem eq_append_of_relationKind? {kind : RelationKind} (h : relationKind? cs = some (kind, rest)) :
  cs = kind.token ++ rest
  := by
  obtain ⟨other, -, hother⟩ := List.exists_of_findSome?_eq_some h
  obtain ⟨found, hfound, heq⟩ := Option.map_eq_some_iff.mp hother
  obtain ⟨rfl, rfl⟩ := Prod.mk.inj heq
  exact (after?_eq_some_iff _ _ _).mp hfound

/-- Every token of a relation has a minus. -/
theorem minus_mem_token (kind : RelationKind) :
  '-' ∈ kind.token
  := by
  cases kind
  all_goals decide

/-- A relation has a minus and no greater sign. -/
theorem mem_of_relation? (h : relation? cs = some statement) :
  '-' ∈ cs ∧ '>' ∉ cs
  := by
  simp only [relation?, Option.bind_eq_bind, Option.bind_eq_some_iff] at h
  obtain ⟨⟨left, behind⟩, hleft, ⟨kind, after⟩, hkind, ⟨right, last⟩, hright, h⟩ := h
  split_ifs at h with hempty
  dsimp only at hkind hright hempty
  obtain ⟨hcs, hleftName⟩ := eq_append_of_className? hleft
  obtain ⟨hafter, hrightName⟩ := eq_append_of_className? hright
  have htoken := eq_append_of_relationKind? hkind
  rw [List.isEmpty_iff.mp hempty, List.append_nil] at hafter
  constructor
  · have hminus : '-' ∈ dropBlanks behind := by
      rw [htoken]
      apply List.mem_append_left _ (minus_mem_token kind)
    exact subset_of_className? hleft (dropBlanks_subset behind hminus)
  · intro hgreater
    have hnotName : ¬isNameChar '>' = true := by decide
    have hnotBlank : ¬isBlank '>' = true := by decide
    rw [hcs] at hgreater
    rcases List.mem_append.mp hgreater with hmem | hmem
    · exact hnotName (hleftName _ hmem)
    · have hmem := (isBlank_or_mem_dropBlanks hmem).resolve_left hnotBlank
      rw [htoken] at hmem
      rcases List.mem_append.mp hmem with hmem | hmem
      · cases kind
        all_goals exact absurd hmem (by decide)
      · have hmem := (isBlank_or_mem_dropBlanks hmem).resolve_left hnotBlank
        rw [hafter] at hmem
        exact hnotName (hrightName _ hmem)

/-- A relation is read from two names with its token between them. -/
theorem relation?_append {left right : List Char} (kind : RelationKind) (hleft : left ≠ [])
    (hleftName : ∀ c ∈ left, isNameChar c = true) (hright : right ≠ [])
    (hrightName : ∀ c ∈ right, isNameChar c = true) :
  relation? (left ++ ' ' :: kind.token ++ ' ' :: right)
    = some (.relation kind (String.ofList left) (String.ofList right))
  := by
  have hkind : relationKind? (dropBlanks (' ' :: (kind.token ++ ' ' :: right)))
      = some (kind, ' ' :: right) := by
    cases kind
    all_goals rfl
  have hlast : className? (dropBlanks (' ' :: right)) = some (right, []) := by
    have hblanks := dropBlanks_name hright hrightName []
    have hname : className? (right ++ []) = some (right, []) :=
      className?_append hright hrightName nofun
    rw [List.append_nil] at hblanks hname
    rw [dropBlanks_space, hblanks, hname]
  rw [relation?, List.append_assoc, List.cons_append, className?_append hleft hleftName]
  · simp only [Option.bind_eq_bind, Option.bind_some, hkind, hlast]
    rfl
  · intro c hc
    obtain rfl := Option.some.inj hc
    rfl

/-! ### Activations -/

/-- What is read as a word is the word in some case. -/
theorem exists_of_afterAnyCase? {word : List Char} (h : afterAnyCase? word cs = some rest) :
  ∃ start, cs = start ++ rest ∧ start.map Char.toLower = word
  := by
  induction word generalizing cs with
  | nil =>
    obtain rfl := Option.some.inj h
    exact ⟨[], rfl, rfl⟩
  | cons w word ih =>
    cases cs with
    | nil => contradiction
    | cons c cs =>
      rw [afterAnyCase?] at h
      split_ifs at h with hw
      obtain ⟨start, rfl, rfl⟩ := ih h
      exact ⟨c :: start, rfl, by rw [List.map_cons, hw]⟩

/-- What is read as a command is its name in some case. -/
theorem exists_of_command? {command : ActivationCommand} (h : command? cs = some (command, rest)) :
  ∃ start, cs = start ++ rest ∧ start.map Char.toLower = command.name.toList
  := by
  rw [command?] at h
  split at h
  · rename_i found hfound
    obtain ⟨rfl, rfl⟩ := Prod.mk.inj (Option.some.inj h)
    exact exists_of_afterAnyCase? hfound
  · obtain ⟨found, hfound, heq⟩ := Option.map_eq_some_iff.mp h
    obtain ⟨rfl, rfl⟩ := Prod.mk.inj heq
    exact exists_of_afterAnyCase? hfound

/-- Blanks have no case. -/
theorem toLower_of_isBlank (h : isBlank c = true) :
  c.toLower = c
  := by
  apply Char.toLower_eq_of_not_isUpper
  intro hupper
  have hname : isNameChar c = true := by
    simp only [isNameChar, Char.isAlphanum, Char.isAlpha, hupper, Bool.true_or]
  rw [isBlank_of_isNameChar hname] at h
  contradiction

/-- The part of an activation in front of the first blank is the word for a command in some case. -/
theorem exists_of_activation? (h : activation? cs = some statement) :
  ∃ command : ActivationCommand,
    (cs.takeWhile fun c => !isBlank c).map Char.toLower = command.name.toList
  := by
  simp only [activation?, Option.bind_eq_bind, Option.bind_eq_some_iff] at h
  obtain ⟨⟨command, rest⟩, hcommand, h⟩ := h
  split at h
  · contradiction
  · contradiction
  · rename_i c rest hrest
    split_ifs at h with hblank
    dsimp only at hrest
    subst hrest
    obtain ⟨start, rfl, hstart⟩ := exists_of_command? hcommand
    have hstartBlank : ∀ c ∈ start, (!isBlank c) = true := by
      intro d hd
      rw [Bool.not_eq_true', ← Bool.not_eq_true]
      intro hdblank
      have hmem := List.mem_map_of_mem (f := Char.toLower) hd
      rw [hstart, toLower_of_isBlank hdblank] at hmem
      have hword : command.name.toList.all fun c => !isBlank c := by
        cases command
        all_goals rfl
      have hnot := List.all_eq_true.mp hword d hmem
      rw [hdblank] at hnot
      contradiction
    use command
    rw [List.takeWhile_append_of_pos hstartBlank, List.takeWhile_cons_of_neg, List.append_nil, hstart]
    rw [hblank]
    exact Bool.false_ne_true

/-! ### Shortest starts -/

section Shortest

variable {α : Type} {p : List Char → Option α} {start : List Char} {a : α}

/-- The start that is taken leaves a rest that can be read. -/
theorem exists_of_shortest? (h : shortest? p cs = some (start, a)) :
  ∃ rest, cs = start ++ rest ∧ p rest = some a
  := by
  induction cs generalizing start with
  | nil => contradiction
  | cons c cs ih =>
    rw [shortest?] at h
    split at h
    · rename_i found hfound
      obtain ⟨rfl, rfl⟩ := Prod.mk.inj (Option.some.inj h)
      exact ⟨cs, rfl, hfound⟩
    · obtain ⟨⟨others, found⟩, hfound, heq⟩ := Option.map_eq_some_iff.mp h
      obtain ⟨rfl, rfl⟩ := Prod.mk.inj heq
      obtain ⟨rest, rfl, hrest⟩ := ih hfound
      exact ⟨rest, rfl, hrest⟩

/-- A start is the shortest when nothing that begins with one of its characters can be read. -/
theorem shortest?_append (hne : start ≠ []) (hstop : ∀ c ∈ start, ∀ cs, p (c :: cs) = none)
    (hrest : p rest = some a) :
  shortest? p (start ++ rest) = some (start, a)
  := by
  induction start with
  | nil => contradiction
  | cons c others ih =>
    obtain ⟨-, hothers⟩ := List.forall_mem_cons.mp hstop
    rw [List.cons_append, shortest?]
    cases others with
    | nil => rw [List.nil_append, hrest]
    | cons d others =>
      rw [List.cons_append, hothers d List.mem_cons_self, ← List.cons_append,
        ih (List.cons_ne_nil d others) hothers]
      rfl

end Shortest

/-! ### Arrows -/

/-- Characters without a minus in front do not matter to the arrow. -/
theorem hasAsyncArrow_append (h : '-' ∉ front) (rest : List Char) :
  hasAsyncArrow (front ++ rest) = hasAsyncArrow rest
  := by
  induction front with
  | nil => rfl
  | cons c front ih =>
    rw [List.mem_cons, not_or] at h
    rw [List.cons_append, hasAsyncArrow.eq_2, ih h.2]
    intro _ hc _
    exact h.1 hc.symm

/-- The arrow of a line is the only one when there is no minus in front of it and behind it. -/
theorem hasAsyncArrow_arrowChars (isAsync : Bool) (hfront : '-' ∉ front) (hrest : '-' ∉ rest) :
  hasAsyncArrow (front ++ ' ' :: (Statement.arrowChars isAsync ++ rest)) = isAsync
  := by
  have hnone : hasAsyncArrow rest = false := by
    rw [← List.append_nil rest, hasAsyncArrow_append hrest]
    rfl
  rw [hasAsyncArrow_append hfront, hasAsyncArrow.eq_2 ' ' _ nofun]
  cases isAsync with
  | true => rfl
  | false =>
    change hasAsyncArrow ('-' :: '>' :: rest) = false
    rw [hasAsyncArrow.eq_2, hasAsyncArrow.eq_2, hnone]
    · nofun
    · nofun

/-- Behind a blank, an arrow is found with what is behind it. -/
theorem arrow?_dropBlanks (isAsync : Bool) (rest : List Char) :
  arrow? (dropBlanks (' ' :: (Statement.arrowChars isAsync ++ rest))) = some (isAsync, rest)
  := by
  cases isAsync
  all_goals rfl

theorem subset_of_arrow? {isAsync : Bool} (h : arrow? cs = some (isAsync, rest)) :
  rest ⊆ cs
  := by
  rw [arrow?.eq_def] at h
  split at h
  · obtain ⟨-, rfl⟩ := Prod.mk.inj (Option.some.inj h)
    exact List.subset_append_right ['-', '-', '>'] _
  · obtain ⟨-, rfl⟩ := Prod.mk.inj (Option.some.inj h)
    exact List.subset_append_right ['-', '>'] _
  · contradiction

/-- No arrow is found where a name begins. -/
theorem arrow?_of_isNameChar (h : isNameChar c = true) (cs : List Char) :
  arrow? (dropBlanks (c :: cs)) = none
  := by
  have hblank : dropBlanks (c :: cs) = c :: cs := by
    apply dropBlanks_of_head
    intro d hd
    obtain rfl := Option.some.inj hd
    exact isBlank_of_isNameChar h
  have hminus : c ≠ '-' := by
    rintro rfl
    contradiction
  rw [hblank, arrow?.eq_def]
  split
  · rename_i heq
    exact absurd (List.cons.inj heq).1 hminus
  · rename_i heq
    exact absurd (List.cons.inj heq).1 hminus
  · rfl

/-! ### Associations -/

/-- An association has an opening parenthesis. -/
theorem association?_eq_none (h : '(' ∉ cs) :
  association? cs = none
  := by
  rw [Option.eq_none_iff_forall_ne_some]
  intro statement hstatement
  obtain ⟨⟨actor, useCase⟩, hfound, -⟩ := Option.map_eq_some_iff.mp hstatement
  obtain ⟨rest, rfl, htail⟩ := exists_of_shortest? hfound
  simp only [useCaseTail?, Option.bind_eq_bind, Option.bind_eq_some_iff] at htail
  obtain ⟨⟨isAsync, behind⟩, harrow, inside, hinside, -⟩ := htail
  have hmem : '(' ∈ dropBlanks behind := by
    rw [(after?_eq_some_iff _ _ _).mp hinside]
    apply List.mem_cons_self
  apply h
  apply List.mem_append_right
  apply dropBlanks_subset rest
  apply subset_of_arrow? harrow
  apply dropBlanks_subset behind hmem

/-- An association is read from its actor and its use case. -/
theorem association?_append {actor useCase : List Char} (isAsync : Bool) (hactor : actor ≠ [])
    (hactorName : ∀ c ∈ actor, isNameChar c = true) (huseCase : useCase ≠ [])
    (huseCaseName : ∀ c ∈ useCase, isNameChar c = true) :
  association? (actor ++ ' ' :: (Statement.arrowChars isAsync ++ ' ' :: '(' :: (useCase ++ [')'])))
    = some (.association (trimmed actor) (trimmed useCase) isAsync)
  := by
  have htail : useCaseTail? (' ' :: (Statement.arrowChars isAsync ++ ' ' :: '(' :: (useCase ++ [')'])))
      = some useCase := by
    have hinside : after? ['('] (dropBlanks (' ' :: '(' :: (useCase ++ [')'])))
        = some (useCase ++ [')']) := rfl
    have hnonempty : ¬useCase.isEmpty = true := by
      rw [List.isEmpty_iff]
      exact huseCase
    simp only [useCaseTail?, arrow?_dropBlanks, Option.bind_eq_bind, Option.bind_some, hinside,
      beforeLast?_concat, if_neg hnonempty]
  have hstop : ∀ c ∈ actor, ∀ cs, useCaseTail? (c :: cs) = none := by
    intro c hc cs
    rw [useCaseTail?, arrow?_of_isNameChar (hactorName c hc)]
    rfl
  have harrow : hasAsyncArrow (actor ++ ' ' :: (Statement.arrowChars isAsync
      ++ ' ' :: '(' :: (useCase ++ [')']))) = isAsync := by
    apply hasAsyncArrow_arrowChars
    · exact not_mem_name hactorName rfl
    · simpa using not_mem_name huseCaseName rfl
  rw [association?, shortest?_append hactor hstop htail, harrow]
  rfl

/-! ### Transitions -/

/-- Only a line that begins with a bracket can be a transition. -/
theorem transition?_eq_none (h : cs.head? ≠ some '[') :
  transition? cs = none
  := by
  cases cs with
  | nil => rfl
  | cons c cs =>
    have hc : after? ['['] (c :: cs) = none := by
      rw [after?, if_neg]
      rintro rfl
      exact h rfl
    rw [transition?, hc]
    rfl

/-- A transition is read from its states and the label behind them. -/
theorem transition?_append {source target label tail : List Char} (isAsync : Bool)
    (hsource : source ≠ []) (hsourceEnd : ']' ∉ source) (hsourceMinus : '-' ∉ source)
    (htarget : target ≠ []) (htargetEnd : ']' ∉ target) (htargetMinus : '-' ∉ target)
    (hlabel : transitionLabel? tail = some label) (htailMinus : '-' ∉ tail) :
  transition? ('[' :: (source ++ ']' :: ' ' :: (Statement.arrowChars isAsync
      ++ ' ' :: '[' :: (target ++ ']' :: tail))))
    = some (.transition (trimmed source) (trimmed target) (trimmed label) isAsync)
  := by
  -- Neither state has a bracket in it, so the shortest start that can be read on from is the state.
  have hclosing : ∀ c cs, c ≠ ']' → after? [']'] (c :: cs) = none := by
    intro c cs hc
    rw [after?, if_neg (Ne.symm hc)]
  have htargetStop : ∀ c ∈ target, ∀ cs, targetEnd? (c :: cs) = none := by
    intro c hc cs
    rw [targetEnd?, hclosing c cs (ne_of_mem_of_not_mem hc htargetEnd)]
    rfl
  have hsourceStop : ∀ c ∈ source, ∀ cs, transitionTail? (c :: cs) = none := by
    intro c hc cs
    rw [transitionTail?, hclosing c cs (ne_of_mem_of_not_mem hc hsourceEnd)]
    rfl
  have hend : targetEnd? (']' :: tail) = some label := hlabel
  have htail : transitionTail? (']' :: ' ' :: (Statement.arrowChars isAsync
      ++ ' ' :: '[' :: (target ++ ']' :: tail))) = some (target, label) := by
    have hbehind : after? [']'] (']' :: ' ' :: (Statement.arrowChars isAsync
        ++ ' ' :: '[' :: (target ++ ']' :: tail)))
        = some (' ' :: (Statement.arrowChars isAsync ++ ' ' :: '[' :: (target ++ ']' :: tail))) := rfl
    have hinside : after? ['['] (dropBlanks (' ' :: '[' :: (target ++ ']' :: tail)))
        = some (target ++ ']' :: tail) := rfl
    simp only [transitionTail?, hbehind, arrow?_dropBlanks, Option.bind_eq_bind, Option.bind_some,
      hinside, shortest?_append htarget htargetStop hend]
  -- The only minus signs are those of the arrow.
  have hfront : '-' ∉ '[' :: (source ++ [']']) := by
    simpa using hsourceMinus
  have hrest : '-' ∉ ' ' :: '[' :: (target ++ ']' :: tail) := by
    simp [htargetMinus, htailMinus]
  have harrow := hasAsyncArrow_arrowChars isAsync hfront hrest
  rw [List.cons_append, List.append_assoc, List.singleton_append] at harrow
  have hinside : after? ['['] ('[' :: (source ++ ']' :: ' ' :: (Statement.arrowChars isAsync
      ++ ' ' :: '[' :: (target ++ ']' :: tail)))) = some (source ++ ']' :: ' ' ::
        (Statement.arrowChars isAsync ++ ' ' :: '[' :: (target ++ ']' :: tail))) := rfl
  simp only [transition?, hinside, Option.bind_eq_bind, Option.bind_some,
    shortest?_append hsource hsourceStop htail, harrow]
  rfl

/-! ### Messages -/

/-- A text behind the first colon is split off there. -/
theorem splitAtColon?_append (hfront : ':' ∉ front) (htext : text ≠ []) :
  splitAtColon? (front ++ ':' :: text) = some (front, text)
  := by
  obtain ⟨d, others, rfl⟩ := List.exists_cons_of_ne_nil htext
  induction front with
  | nil => rfl
  | cons c front ih =>
    rw [List.mem_cons, not_or] at hfront
    obtain ⟨next, behind, hnext⟩ : ∃ next behind, front ++ ':' :: d :: others = next :: behind :=
      List.exists_cons_of_ne_nil (List.append_ne_nil_of_right_ne_nil front (List.cons_ne_nil _ _))
    have hrest := ih hfront.2
    rw [hnext] at hrest
    rw [List.cons_append, hnext, splitAtColon?, if_neg (Ne.symm hfront.1), hrest]
    rfl

/-- A message is read from its ends and the text behind them. -/
theorem message?_append {sender receiver : List Char} (isAsync : Bool) (hsender : sender ≠ [])
    (hsenderName : ∀ c ∈ sender, isNameChar c = true) (hreceiver : receiver ≠ [])
    (hreceiverName : ∀ c ∈ receiver, isNameChar c = true) (htext : text ≠ []) :
  message? (sender ++ ' ' :: (Statement.arrowChars isAsync ++ ' ' :: (receiver ++ ':' :: text)))
    = some (.message (trimmed sender) (trimmed receiver) (trimmed text) isAsync)
  := by
  have hsplit : receiver? (' ' :: (receiver ++ ':' :: text)) = some (receiver, text) := by
    have hcolon : ':' ∉ receiver := not_mem_name hreceiverName rfl
    rw [receiver?, dropBlanks_space, dropBlanks_name hreceiver hreceiverName]
    obtain ⟨c, others, rfl⟩ := List.exists_cons_of_ne_nil hreceiver
    rw [List.mem_cons, not_or] at hcolon
    rw [List.cons_append]
    dsimp only
    rw [splitAtColon?_append hcolon.2 htext]
  have htail : messageTail? (' ' :: (Statement.arrowChars isAsync ++ ' ' :: (receiver ++ ':' :: text)))
      = some (isAsync, receiver, text) := by
    simp only [messageTail?, arrow?_dropBlanks, Option.bind_eq_bind, Option.bind_some, hsplit]
    rfl
  have hstop : ∀ c ∈ sender, ∀ cs, messageTail? (c :: cs) = none := by
    intro c hc cs
    rw [messageTail?, arrow?_of_isNameChar (hsenderName c hc)]
    rfl
  rw [message?, shortest?_append hsender hstop htail]
  rfl

end DiagramLayout.Script
