import DiagramLayout.Proofs.Script.Statements
import DiagramLayout.Proofs.Script.WellFormed

/-!
# Names that are left out

A name is trimmed when it is read, so it is empty where only blanks stand in its place. The normal form of
a line has no blanks at its ends: actors and senders, which begin their lines, and participants of commands
and texts of messages, which end theirs, are never empty. But a use case in its parentheses, a state in its
brackets and a receiver in front of the colon may be left out.
-/

namespace DiagramLayout

/-! ### Blank texts -/

section Blank

variable {cs line part : List Char} {c : Char}

/-- Trimming loses blanks only. -/
theorem mem_trim (hc : c ∈ cs) (hblank : isBlank c = false) :
  c ∈ trim cs
  := by
  have hnot : ¬isBlank c = true := by
    rw [hblank]
    exact Bool.false_ne_true
  have hfront := (Script.isBlank_or_mem_dropBlanks hc).resolve_left hnot
  rw [trim, dropBlanksEnd, List.mem_reverse]
  exact (Script.isBlank_or_mem_dropBlanks (List.mem_reverse.mpr hfront)).resolve_left hnot

/-- Only blanks are trimmed to the empty text. -/
theorem trimmed_eq_empty_iff :
  trimmed cs = "" ↔ ∀ c ∈ cs, isBlank c = true
  := by
  rw [trimmed, String.ofList_eq_empty_iff]
  constructor
  · intro h c hc
    by_contra hblank
    have hmem := mem_trim hc (Bool.not_eq_true _ ▸ hblank)
    rw [h] at hmem
    exact List.not_mem_nil hmem
  · intro h
    by_contra hne
    obtain ⟨c, rest, htrim⟩ := List.exists_cons_of_ne_nil hne
    have hhead := (isTrim_trim cs).head c (by rw [htrim]; rfl)
    have hmem : c ∈ cs := trim_subset cs (by rw [htrim]; exact List.mem_cons_self)
    rw [h c hmem] at hhead
    contradiction

/-- What a line without blanks at its ends begins with is more than blanks. -/
theorem IsTrim.trimmed_prefix_ne (h : IsTrim line) (hpart : part <+: line) (hne : part ≠ []) :
  trimmed part ≠ ""
  := by
  obtain ⟨c, rest, rfl⟩ := List.exists_cons_of_ne_nil hne
  obtain ⟨back, rfl⟩ := hpart
  intro hempty
  have hblank := trimmed_eq_empty_iff.mp hempty c List.mem_cons_self
  rw [h.head c rfl] at hblank
  contradiction

/-- What a line without blanks at its ends ends with is more than blanks. -/
theorem IsTrim.trimmed_suffix_ne (h : IsTrim line) (hpart : part <:+ line) (hne : part ≠ []) :
  trimmed part ≠ ""
  := by
  obtain ⟨front, rfl⟩ := hpart
  intro hempty
  have hlast : (front ++ part).getLast? = some (part.getLast hne) := by
    rw [List.getLast?_append_of_ne_nil _ hne, List.getLast?_eq_some_getLast hne]
  have hblank := trimmed_eq_empty_iff.mp hempty _ (List.getLast_mem hne)
  rw [h.getLast _ hlast] at hblank
  contradiction

end Blank

namespace Script

variable {cs line part rest start front receiver text useCase target label : List Char}
  {opening closing c : Char} {isAsync : Bool} {statement : Statement}

/-- At least one blank and nothing else. -/
def IsGap (cs : List Char) : Prop :=
  cs ≠ [] ∧ ∀ c ∈ cs, isBlank c = true

/-- Somewhere in the line there is a gap between the two characters. -/
def HasGap (opening closing : Char) (line : List Char) : Prop :=
  ∃ gap, IsGap gap ∧ opening :: (gap ++ [closing]) <:+: line

/-- A part of a line that is trimmed to the empty text is a gap. -/
theorem isGap_of_trimmed (hne : part ≠ []) (hempty : trimmed part = "") :
  IsGap part
  := ⟨hne, trimmed_eq_empty_iff.mp hempty⟩

theorem isGap_takeWhile (h : cs.head?.any isBlank = true) :
  IsGap (cs.takeWhile isBlank)
  := by
  refine ⟨?_, fun _ => List.mem_takeWhile_imp⟩
  cases cs with
  | nil => exact absurd h Bool.false_ne_true
  | cons c cs =>
    have hc : isBlank c = true := h
    rw [List.takeWhile_cons_of_pos hc]
    apply List.cons_ne_nil

/-- A line that ends with a gap between two characters and a rest has such a gap. -/
theorem hasGap_of_isSuffix (h : opening :: (part ++ closing :: rest) <:+ line) (hpart : IsGap part) :
  HasGap opening closing line
  := by
  obtain ⟨front, rfl⟩ := h
  exact ⟨part, hpart, front, rest, by simp⟩

/-! ### Where the readers of lines find names -/

/-- The shortest start that leaves something to read has a character. -/
theorem ne_nil_of_shortest? {α : Type} {p : List Char → Option α} {a : α}
    (h : shortest? p cs = some (start, a)) :
  start ≠ []
  := by
  cases cs with
  | nil => contradiction
  | cons c cs =>
    rw [shortest?] at h
    split at h
    · obtain ⟨rfl, -⟩ := Prod.mk.inj (Option.some.inj h)
      apply List.cons_ne_nil
    · obtain ⟨found, -, heq⟩ := Option.map_eq_some_iff.mp h
      obtain ⟨rfl, -⟩ := Prod.mk.inj heq
      apply List.cons_ne_nil

theorem isSuffix_dropBlanks (cs : List Char) :
  dropBlanks cs <:+ cs
  := List.dropWhile_suffix isBlank

/-- What stands behind an arrow stands behind a `>` at the end of the line. -/
theorem isSuffix_of_arrow? (h : arrow? cs = some (isAsync, rest)) :
  '>' :: rest <:+ cs
  := by
  rw [arrow?.eq_def] at h
  split at h
  · obtain ⟨-, rfl⟩ := Prod.mk.inj (Option.some.inj h)
    exact List.suffix_append ['-', '-'] _
  · obtain ⟨-, rfl⟩ := Prod.mk.inj (Option.some.inj h)
    exact List.suffix_append ['-'] _
  · contradiction

/-- What stands behind the blanks behind an arrow is an end of the line. -/
theorem isSuffix_of_arrow?_dropBlanks (h : arrow? (dropBlanks cs) = some (isAsync, rest)) :
  dropBlanks rest <:+ cs
  := by
  have harrow := (List.suffix_cons '>' rest).trans (isSuffix_of_arrow? h)
  exact ((isSuffix_dropBlanks rest).trans harrow).trans (isSuffix_dropBlanks cs)

/-- The characters and the one behind them make up the line. -/
theorem eq_concat_of_beforeLast? (h : beforeLast? c cs = some front) :
  cs = front ++ [c]
  := by
  rw [beforeLast?] at h
  split_ifs at h with hlast
  obtain rfl := Option.some.inj h
  exact (List.dropLast_append_getLast? c hlast).symm

/-- A use case stands in parentheses at the end of its line. -/
theorem isSuffix_of_useCaseTail? (h : useCaseTail? cs = some useCase) :
  '(' :: (useCase ++ [')']) <:+ cs ∧ useCase ≠ []
  := by
  simp only [useCaseTail?, Option.bind_eq_bind, Option.bind_eq_some_iff] at h
  obtain ⟨⟨isAsync, behind⟩, harrow, inside, hinside, found, hfound, h⟩ := h
  split_ifs at h with hempty
  obtain rfl := Option.some.inj h
  have hsuffix := isSuffix_of_arrow?_dropBlanks harrow
  rw [(after?_eq_some_iff _ _ _).mp hinside, eq_concat_of_beforeLast? hfound] at hsuffix
  exact ⟨hsuffix, List.isEmpty_iff.not.mp hempty⟩

/-- The bracket behind the source of a transition closes it, and its target has brackets too. -/
theorem exists_of_transitionTail? (h : transitionTail? cs = some (target, label)) :
  (∃ behind, cs = ']' :: behind) ∧ target ≠ [] ∧ ∃ back, '[' :: (target ++ ']' :: back) <:+ cs
  := by
  simp only [transitionTail?, Option.bind_eq_bind, Option.bind_eq_some_iff] at h
  obtain ⟨behind, hbehind, ⟨isAsync, further⟩, harrow, inside, hinside, hfound⟩ := h
  obtain ⟨tail, rfl, htail⟩ := exists_of_shortest? hfound
  obtain ⟨back, hback, -⟩ := Option.bind_eq_some_iff.mp htail
  have hcs := (after?_eq_some_iff _ _ _).mp hbehind
  have hsuffix := isSuffix_of_arrow?_dropBlanks harrow
  rw [(after?_eq_some_iff _ _ _).mp hinside, (after?_eq_some_iff _ _ _).mp hback] at hsuffix
  refine ⟨⟨behind, hcs⟩, ne_nil_of_shortest? hfound, back, ?_⟩
  rw [hcs]
  exact hsuffix.trans (List.suffix_cons ']' behind)

/-- A line that is split at a colon consists of the two parts and the colon, and the second part is
not empty. -/
theorem eq_append_of_splitAtColon? (h : splitAtColon? cs = some (front, text)) :
  cs = front ++ ':' :: text ∧ text ≠ []
  := by
  induction cs generalizing front with
  | nil => contradiction
  | cons c cs ih =>
    cases cs with
    | nil => contradiction
    | cons d cs =>
      rw [splitAtColon?] at h
      split_ifs at h with hcolon
      · obtain ⟨rfl, rfl⟩ := Prod.mk.inj (Option.some.inj h)
        rw [hcolon]
        exact ⟨rfl, List.cons_ne_nil d cs⟩
      · obtain ⟨found, hfound, heq⟩ := Option.map_eq_some_iff.mp h
        obtain ⟨rfl, rfl⟩ := Prod.mk.inj heq
        obtain ⟨hcs, hne⟩ := ih hfound
        rw [hcs]
        exact ⟨rfl, hne⟩

/-- The text behind the colon is an end of the line. -/
theorem isSuffix_of_splitAtColon? (h : splitAtColon? cs = some (front, text)) :
  text <:+ cs ∧ text ≠ []
  := by
  obtain ⟨rfl, hne⟩ := eq_append_of_splitAtColon? h
  exact ⟨(List.suffix_cons ':' text).trans (List.suffix_append front _), hne⟩

/-- The text of a message stands at the end of its line and is not empty. -/
theorem isSuffix_of_receiver? (h : receiver? cs = some (receiver, text)) :
  text <:+ cs ∧ text ≠ []
  := by
  rw [receiver?] at h
  split at h
  · contradiction
  · rename_i c rest hrest
    have hdrop := isSuffix_dropBlanks cs
    rw [hrest] at hdrop
    split at h
    · rename_i found hfound
      obtain ⟨rfl, rfl⟩ := Prod.mk.inj (Option.some.inj h)
      obtain ⟨htext, hne⟩ := isSuffix_of_splitAtColon? hfound
      exact ⟨(htext.trans (List.suffix_cons c rest)).trans hdrop, hne⟩
    · split_ifs at h
      obtain ⟨htext, hne⟩ := isSuffix_of_splitAtColon? h
      exact ⟨htext.trans hdrop, hne⟩

/-- Behind a receiver of blanks there is nothing in front of the colon but these blanks. -/
theorem exists_of_receiver? (h : receiver? cs = some (receiver, text))
    (hempty : trimmed receiver = "") :
  ∃ gap, IsGap gap ∧ cs = gap ++ ':' :: text
  := by
  have hblank := trimmed_eq_empty_iff.mp hempty
  have hcs : cs.takeWhile isBlank ++ dropBlanks cs = cs := List.takeWhile_append_dropWhile
  rw [receiver?] at h
  split at h
  · contradiction
  · rename_i c rest hrest
    have hhead : c ∈ (dropBlanks cs).head? := by
      rw [hrest]
      rfl
    have hc := isBlank_head_dropBlanks hhead
    split at h
    · -- A receiver that begins with a character other than a blank is more than blanks.
      obtain ⟨rfl, -⟩ := Prod.mk.inj (Option.some.inj h)
      rw [hblank c List.mem_cons_self] at hc
      contradiction
    · split_ifs at h with hfirst
      obtain ⟨hsplit, -⟩ := eq_append_of_splitAtColon? h
      cases receiver with
      | nil =>
        -- The colon comes first behind the blanks, and there is a blank in front of it.
        rw [hrest, hsplit] at hcs
        exact ⟨_, isGap_takeWhile hfirst, hcs.symm⟩
      | cons d receiver =>
        obtain ⟨rfl, -⟩ := List.cons.inj hsplit
        rw [hblank c List.mem_cons_self] at hc
        contradiction

/-- The receiver and the text of a message stand behind a `>`. -/
theorem isSuffix_of_messageTail? (h : messageTail? cs = some (isAsync, receiver, text)) :
  ∃ behind, '>' :: behind <:+ cs ∧ receiver? behind = some (receiver, text)
  := by
  simp only [messageTail?, Option.bind_eq_bind, Option.bind_eq_some_iff, Option.pure_def,
    Option.some.injEq] at h
  obtain ⟨⟨_, behind⟩, harrow, ⟨_, _⟩, hreceiver, heq⟩ := h
  obtain ⟨-, rfl, rfl⟩ := heq
  exact ⟨behind, (isSuffix_of_arrow? harrow).trans (isSuffix_dropBlanks cs), hreceiver⟩

end Script

/-! ### Statements -/

/-- The statement that is read from the line leaves out a name only where the line has a gap; neither an
actor, a sender, the participant of a command nor the text of a message can be left out. -/
def Statement.HasNames (line : List Char) : Statement → Prop
  | association actor useCase _ => actor ≠ "" ∧ (useCase = "" → Script.HasGap '(' ')' line)
  | transition source target _ _ => source = "" ∨ target = "" → Script.HasGap '[' ']' line
  | activation _ participant => participant ≠ ""
  | message sender receiver text _ =>
    sender ≠ "" ∧ (receiver = "" → Script.HasGap '>' ':' line) ∧ text ≠ ""
  | _ => True

namespace Script

/-- A line that declares a class and its members leaves out no name but with a gap. -/
theorem hasNames_of_inlineClass? (h : inlineClass? line = some statement) :
  statement.HasNames line
  := by
  simp only [inlineClass?, Option.bind_eq_bind, Option.bind_eq_some_iff, Option.pure_def,
    Option.some.injEq] at h
  obtain ⟨head, -, inside, -, body, -, rfl⟩ := h
  trivial

/-- A line that opens a class leaves out no name but with a gap. -/
theorem hasNames_of_openClass? (h : openClass? line = some statement) :
  statement.HasNames line
  := by
  simp only [openClass?, Option.bind_eq_bind, Option.bind_eq_some_iff] at h
  obtain ⟨head, -, h⟩ := h
  split_ifs at h
  obtain rfl := Option.some.inj h
  trivial

/-- A line with a relation leaves out no name but with a gap. -/
theorem hasNames_of_relation? (h : relation? line = some statement) :
  statement.HasNames line
  := by
  simp only [relation?, Option.bind_eq_bind, Option.bind_eq_some_iff] at h
  obtain ⟨left, -, kind, -, right, -, h⟩ := h
  split_ifs at h
  obtain rfl := Option.some.inj h
  trivial

/-- The participant of a command is an end of the line. -/
theorem hasNames_of_activation? (hline : IsTrim line) (h : activation? line = some statement) :
  statement.HasNames line
  := by
  simp only [activation?, Option.bind_eq_bind, Option.bind_eq_some_iff] at h
  obtain ⟨⟨command, behind⟩, hcommand, h⟩ := h
  obtain ⟨start, rfl, -⟩ := exists_of_command? hcommand
  split at h
  · contradiction
  · contradiction
  · rename_i c rest hone hbehind
    split_ifs at h
    dsimp only at hbehind
    subst hbehind
    obtain rfl := Option.some.inj h
    have hsuffix := (List.suffix_cons c rest).trans (List.suffix_append start _)
    exact hline.trimmed_suffix_ne hsuffix hone

/-- The actor is a start of the line, and the use case stands in its parentheses at the end. -/
theorem hasNames_of_association? (hline : IsTrim line) (h : association? line = some statement) :
  statement.HasNames line
  := by
  obtain ⟨⟨actor, useCase⟩, hfound, rfl⟩ := Option.map_eq_some_iff.mp h
  obtain ⟨rest, rfl, htail⟩ := exists_of_shortest? hfound
  obtain ⟨hsuffix, hne⟩ := isSuffix_of_useCaseTail? htail
  constructor
  · exact hline.trimmed_prefix_ne (List.prefix_append actor rest) (ne_nil_of_shortest? hfound)
  · intro hempty
    have hinside := hsuffix.trans (List.suffix_append actor rest)
    exact hasGap_of_isSuffix hinside (isGap_of_trimmed hne hempty)

/-- Both states stand in brackets. -/
theorem hasNames_of_transition? (h : transition? line = some statement) :
  statement.HasNames line
  := by
  simp only [transition?, Option.bind_eq_bind, Option.bind_eq_some_iff, Option.pure_def,
    Option.some.injEq] at h
  obtain ⟨inside, hinside, ⟨source, target, label⟩, hfound, rfl⟩ := h
  obtain ⟨rest, rfl, htail⟩ := exists_of_shortest? hfound
  obtain ⟨⟨behind, rfl⟩, hne, back, hsuffix⟩ := exists_of_transitionTail? htail
  obtain rfl := (after?_eq_some_iff _ _ _).mp hinside
  rintro (hempty | hempty)
  · have hgap := isGap_of_trimmed (ne_nil_of_shortest? hfound) hempty
    exact hasGap_of_isSuffix List.suffix_rfl hgap
  · have hinside := (hsuffix.trans (List.suffix_append source _)).trans (List.suffix_cons '[' _)
    exact hasGap_of_isSuffix hinside (isGap_of_trimmed hne hempty)

/-- The sender is a start of the line and the text an end of it. -/
theorem hasNames_of_message? (hline : IsTrim line) (h : message? line = some statement) :
  statement.HasNames line
  := by
  obtain ⟨⟨sender, isAsync, receiver, text⟩, hfound, rfl⟩ := Option.map_eq_some_iff.mp h
  obtain ⟨rest, rfl, htail⟩ := exists_of_shortest? hfound
  obtain ⟨behind, hbehind, hreceiver⟩ := isSuffix_of_messageTail? htail
  have hsuffix := hbehind.trans (List.suffix_append sender rest)
  obtain ⟨htext, hne⟩ := isSuffix_of_receiver? hreceiver
  refine ⟨?_, ?_, ?_⟩
  · exact hline.trimmed_prefix_ne (List.prefix_append sender rest) (ne_nil_of_shortest? hfound)
  · intro hempty
    obtain ⟨gap, hgap, rfl⟩ := exists_of_receiver? hreceiver hempty
    exact hasGap_of_isSuffix hsuffix hgap
  · exact hline.trimmed_suffix_ne ((htext.trans (List.suffix_cons '>' behind)).trans hsuffix) hne

end Script

/-- A trimmed line of any form leaves out no name but with a gap. -/
theorem Statement.hasNames_of_ofLine? {line : List Char} {s : Statement} (hline : IsTrim line)
    (h : ofLine? line = some s) :
  s.HasNames line
  := by
  obtain ⟨form, hform, hs⟩ := List.exists_of_findSome?_eq_some h
  simp only [Script.forms, List.mem_cons, List.not_mem_nil, or_false] at hform
  rcases hform with rfl | rfl | rfl | rfl | rfl | rfl | rfl
  · exact Script.hasNames_of_inlineClass? hs
  · exact Script.hasNames_of_openClass? hs
  · exact Script.hasNames_of_relation? hs
  · exact Script.hasNames_of_activation? hline hs
  · exact Script.hasNames_of_association? hline hs
  · exact Script.hasNames_of_transition? hs
  · exact Script.hasNames_of_message? hline hs

namespace Statement.HasNames

variable {s : Statement} {line : List Char}

/-- No statement leaves out an actor. -/
theorem empty_notMem_actors (h : s.HasNames line) :
  "" ∉ s.actors
  := by
  cases s with
  | association actor useCase isAsync =>
    intro hempty
    exact h.1 (List.mem_singleton.mp hempty).symm
  | _ => exact List.not_mem_nil

/-- No statement leaves out the text of a message. -/
theorem text_ne_empty (h : s.HasNames line) {message : String → Message}
    (hmessage : s.toMessage? = some message) (id : String) :
  (message id).text ≠ ""
  := by
  cases s with
  | message sender receiver text isAsync =>
    obtain rfl := Option.some.inj hmessage
    exact h.2.2
  | _ => contradiction

/-- A statement leaves out a use case only with a gap between parentheses. -/
theorem hasGap_of_useCases (h : s.HasNames line) (hempty : "" ∈ s.useCases) :
  Script.HasGap '(' ')' line
  := by
  cases s with
  | association actor useCase isAsync => exact h.2 (List.mem_singleton.mp hempty).symm
  | _ => exact absurd hempty List.not_mem_nil

/-- A statement leaves out a state only with a gap between brackets. -/
theorem hasGap_of_states (h : s.HasNames line) (hempty : "" ∈ s.states) :
  Script.HasGap '[' ']' line
  := by
  cases s with
  | transition source target label isAsync =>
    exact h ((List.mem_pair.mp hempty).imp Eq.symm Eq.symm)
  | _ => exact absurd hempty List.not_mem_nil

/-- A statement leaves out a receiver only with a gap between the arrow and the colon. -/
theorem hasGap_of_participants (h : s.HasNames line) (hempty : "" ∈ s.participants) :
  Script.HasGap '>' ':' line
  := by
  cases s with
  | activation command participant => exact absurd (List.mem_singleton.mp hempty).symm h
  | message sender receiver text isAsync =>
    rcases List.mem_pair.mp hempty with hempty | hempty
    · exact absurd hempty.symm h.1
    · exact h.2.1 hempty.symm
  | _ => exact absurd hempty List.not_mem_nil

end Statement.HasNames

/-! ### Texts -/

/-- All names of actors, use cases, participants and states and all texts of messages are more than
nothing. -/
structure Model.IsNamed (m : Model) : Prop where
  actors : "" ∉ m.useCase.actors
  useCases : "" ∉ m.useCase.useCases
  participants : "" ∉ m.sequence.participants
  states : "" ∉ m.state.states
  texts : ∀ message ∈ m.sequence.messages, message.text ≠ ""

namespace Script

variable {text : String} {line : List Char} {s : Statement} {names : Statement → List String}
  {opening closing : Char}

/-- A line of a text leaves out no name but with a gap. -/
theorem Says.hasNames (h : Says text line s) :
  s.HasNames line
  := by
  obtain ⟨i, raw, -, -, rfl, hs⟩ := h
  exact Statement.hasNames_of_ofLine? (isTrim_trim _) hs

/-- A statement of the text leaves out a name, and in its line there is a gap where the name would
stand. -/
def LeavesOut (text : String) (names : Statement → List String) (opening closing : Char) : Prop :=
  ∃ line s, Says text line s ∧ "" ∈ names s ∧ HasGap opening closing line

/-- Where a name can only be left out in a gap, an empty one among those of the statements is left
out. -/
theorem empty_mem_names_iff
    (hgap : ∀ line s, Says text line s → "" ∈ names s → HasGap opening closing line) :
  "" ∈ (statements text).flatMap names ↔ LeavesOut text names opening closing
  := by
  rw [List.mem_flatMap]
  constructor
  · rintro ⟨s, hs, hempty⟩
    obtain ⟨line, hsays⟩ := mem_statements_iff.mp hs
    exact ⟨line, s, hsays, hempty, hgap line s hsays hempty⟩
  · rintro ⟨line, s, hsays, hempty, -⟩
    exact ⟨s, mem_statements_iff.mpr ⟨line, hsays⟩, hempty⟩

end Script

namespace Reading

variable (text : String)

/-- Whatever the text is, no actor is without a name. -/
theorem empty_notMem_actors :
  "" ∉ (ofText text).model.useCase.actors
  := by
  rw [(tells_ofText text).useCase, UseCaseDiagram.ofScript, NameSet.mem_ofList, List.mem_flatMap]
  rintro ⟨s, hs, hempty⟩
  obtain ⟨line, hsays⟩ := Script.mem_statements_iff.mp hs
  exact hsays.hasNames.empty_notMem_actors hempty

/-- Whatever the text is, no message is without a text. -/
theorem text_ne_empty :
  ∀ message ∈ (ofText text).model.sequence.messages, message.text ≠ ""
  := by
  rw [(tells_ofText text).messages, numbered]
  intro message hmessage
  obtain ⟨i, hi, rfl⟩ := List.mem_mapIdx.mp hmessage
  obtain ⟨s, hs, hthing⟩ := List.mem_filterMap.mp (List.getElem_mem hi)
  obtain ⟨line, hsays⟩ := Script.mem_statements_iff.mp hs
  exact hsays.hasNames.text_ne_empty hthing _

/-- A use case is without a name exactly when a statement leaves it out. -/
theorem empty_mem_useCases_iff :
  "" ∈ (ofText text).model.useCase.useCases ↔ Script.LeavesOut text Statement.useCases '(' ')'
  := by
  rw [(tells_ofText text).useCase, UseCaseDiagram.ofScript, NameSet.mem_ofList]
  exact Script.empty_mem_names_iff fun _ _ hsays => hsays.hasNames.hasGap_of_useCases

/-- A state is without a name exactly when a statement leaves it out. -/
theorem empty_mem_states_iff :
  "" ∈ (ofText text).model.state.states ↔ Script.LeavesOut text Statement.states '[' ']'
  := by
  have hstar : decide (("" : String) ≠ "*") = true := by decide
  rw [(tells_ofText text).state, StateDiagram.ofScript, NameSet.mem_ofList,
    List.mem_filter, and_iff_left hstar]
  exact Script.empty_mem_names_iff fun _ _ hsays => hsays.hasNames.hasGap_of_states

/-- A participant is without a name exactly when a statement leaves it out. -/
theorem empty_mem_participants_iff :
  "" ∈ (ofText text).model.sequence.participants
    ↔ Script.LeavesOut text Statement.participants '>' ':'
  := by
  rw [(tells_ofText text).participants, NameSet.mem_ofList]
  exact Script.empty_mem_names_iff fun _ _ hsays => hsays.hasNames.hasGap_of_participants

/-- In every text actors have names and messages have texts, and everything is named unless a line leaves
out a use case in its parentheses, a state in its brackets or a receiver in front of the colon. -/
theorem ofText_isNamed_iff :
  "" ∉ (ofText text).model.useCase.actors
    ∧ (∀ message ∈ (ofText text).model.sequence.messages, message.text ≠ "")
    ∧ ((ofText text).model.IsNamed
      ↔ ¬Script.LeavesOut text Statement.useCases '(' ')'
        ∧ ¬Script.LeavesOut text Statement.states '[' ']'
        ∧ ¬Script.LeavesOut text Statement.participants '>' ':')
  := by
  refine ⟨empty_notMem_actors text, text_ne_empty text, ?_⟩
  rw [← empty_mem_useCases_iff, ← empty_mem_states_iff, ← empty_mem_participants_iff]
  constructor
  · intro h
    exact ⟨h.useCases, h.states, h.participants⟩
  · rintro ⟨huseCases, hstates, hparticipants⟩
    exact ⟨empty_notMem_actors text, huseCases, hparticipants, hstates, text_ne_empty text⟩

/-- A message may be sent to nobody. -/
theorem not_isNamed_unaddressed :
  ¬∀ text, (ofText text).model.IsNamed
  := by
  intro h
  apply (h "A -> : x").participants
  decide

/-- A use case and a state may be left out as well. -/
example : "" ∈ (ofText "A -> ( )").model.useCase.useCases
  ∧ "" ∈ (ofText "[ ] -> [B]").model.state.states
  := by
  decide

end Reading

end DiagramLayout
