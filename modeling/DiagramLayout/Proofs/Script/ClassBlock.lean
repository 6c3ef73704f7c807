import DiagramLayout.Proofs.Catalog
import DiagramLayout.Proofs.Script.Line
import DiagramLayout.Proofs.Script.Printer
import DiagramLayout.Proofs.Script.Reading

/-!
# Classes on one line and in blocks

A class whose members stand in braces on one line is read as the class whose members stand on lines of
their own: reading either one changes the class of the name by adding the members one after another. With
empty lines behind the shorter form, so that the lines behind it keep their numbers, nothing else of a
script can tell the two forms apart.
-/

namespace DiagramLayout

open Script

namespace Script

/-- Nothing in the text ends a line, a member or a class, or begins a comment. -/
structure IsMemberText (member : List Char) : Prop where
  lineFeed : '\n' ∉ member
  semicolon : ';' ∉ member
  brace : '\x7d' ∉ member
  hash : '#' ∉ member
  slashes : ¬['/', '/'] <:+: member

/-- The lines of a class in a block. -/
def blockLines (name : String) (members : List (List Char)) : List (List Char) :=
  (Statement.openClass name).toLine :: (members ++ [['\x7d']])

/-- The line of a class and as many empty lines behind it as there are more in the block. -/
def inlineLines (name : String) (members : List (List Char)) : List (List Char) :=
  (Statement.inlineClass name members).toLine :: List.replicate (members.length + 1) []

/-- Both ways to write the class take the same number of lines. -/
theorem length_blockLines (name : String) (members : List (List Char)) :
  (blockLines name members).length = (inlineLines name members).length
  := by
  rw [blockLines, inlineLines, List.length_cons, List.length_append, List.length_singleton,
    List.length_cons, List.length_replicate]

/-! ### Normal forms -/

variable {name : String} {members : List (List Char)}

/-- The members in one line have no comment between them. -/
theorem beforeSlashes_memberChars (h : ∀ member ∈ members, ¬['/', '/'] <:+: member)
    {back : List Char} (hback : back.head? ≠ some '/') :
  beforeSlashes (Statement.memberChars members ++ back)
    = Statement.memberChars members ++ beforeSlashes back
  := by
  induction members using Statement.memberChars.induct with
  | case1 => rfl
  | case2 member => exact beforeSlashes_append (h member List.mem_cons_self) hback
  | case3 member rest hne ih =>
    obtain ⟨hmember, hrest⟩ := List.forall_mem_cons.mp h
    rw [Statement.memberChars.eq_3 _ _ hne, List.append_assoc, List.cons_append, List.cons_append,
      beforeSlashes_append hmember (by simp), beforeSlashes_cons (by decide),
      beforeSlashes_cons (by decide), ih hrest, List.append_assoc, List.cons_append,
      List.cons_append]

/-- The line that opens a class is in normal form. -/
theorem normalize_toLine_openClass (hname : ∀ c ∈ name.toList, isNameChar c = true) :
  normalize (Statement.openClass name).toLine = (Statement.openClass name).toLine
  := by
  have hslash : '/' ∉ (Statement.openClass name).toLine :=
    Statement.not_mem_toLine_openClass hname rfl (by simp [Statement.marks])
  have hhash : '#' ∉ (Statement.openClass name).toLine :=
    Statement.not_mem_toLine_openClass hname rfl (by simp [Statement.marks])
  rw [normalize_eq_trim (not_infix_of_not_mem hslash) hhash,
    trim_eq (Statement.isTrim_toLine_openClass name)]

/-- The line of a class is in normal form, when its members can be members. -/
theorem normalize_toLine_inlineClass (hname : ∀ c ∈ name.toList, isNameChar c = true)
    (h : ∀ member ∈ members, IsMemberText member) :
  normalize (Statement.inlineClass name members).toLine = (Statement.inlineClass name members).toLine
  := by
  have hhash : '#' ∉ (Statement.inlineClass name members).toLine :=
    Statement.not_mem_toLine_inlineClass hname (fun member hmember => (h member hmember).hash) rfl
      (by decide) (by decide) (by decide) (by decide)
  have hhead : '/' ∉ "class ".toList ++ name.toList := by
    rw [List.mem_append, not_or]
    exact ⟨by decide, not_mem_name hname rfl⟩
  have htail : beforeSlashes (Statement.memberChars members ++ [' ', '\x7d'])
      = Statement.memberChars members ++ [' ', '\x7d'] :=
    beforeSlashes_memberChars (fun member hmember => (h member hmember).slashes) (by simp)
  have hslashes : beforeSlashes (Statement.inlineClass name members).toLine
      = (Statement.inlineClass name members).toLine := by
    rw [Statement.toLine_inlineClass, List.cons_append,
      List.append_assoc (Statement.memberChars members), List.singleton_append,
      beforeSlashes_append (not_infix_of_not_mem hhead) (by simp),
      beforeSlashes_cons (by decide), beforeSlashes_cons (by decide),
      beforeSlashes_cons (by decide), htail]
  rw [normalize, hslashes, beforeHash_of_not_mem hhash,
    trim_eq (Statement.isTrim_toLine_inlineClass name members)]

/-- A class that is opened is read from its name. -/
theorem ofLine?_openClass (hne : name.toList ≠ [])
    (hname : ∀ c ∈ name.toList, isNameChar c = true) :
  Statement.ofLine? (Statement.openClass name).toLine = some (.openClass name)
  := by
  have hhead := classHead?_append hne hname []
  change classHead? (Statement.openClass name).toLine = some (name.toList, ['\x7b']) at hhead
  have hinline : inlineClass? (Statement.openClass name).toLine = none := by
    simp only [inlineClass?, hhead, Option.bind_eq_bind, Option.bind_some]
    rfl
  have hopen : openClass? (Statement.openClass name).toLine = some (.openClass name) := by
    simp only [openClass?, hhead, Option.bind_eq_bind, Option.bind_some, if_pos,
      String.ofList_toList]
  simp only [Statement.ofLine?, forms, List.findSome?_cons, hinline, hopen]

end Script

namespace Reading

variable {name : String} {members : List (List Char)} {r : Reading}

/-- Two changes of a class are one change. -/
theorem adjustClass_adjustClass (r : Reading) (name : String) (first second : ClassNode → ClassNode) :
  (r.adjustClass name first).adjustClass name second
    = r.adjustClass name fun c => second (first c)
  := by
  simp only [adjustClass, ClassDiagram.adjust, Catalog.adjust_adjust]

/-! ### The line -/

/-- Blank lines say nothing. -/
theorem readFrom_replicate (r : Reading) (number count : ℕ) :
  r.readFrom number (List.replicate count []) = r
  := by
  induction count generalizing number with
  | zero => rfl
  | succ count ih =>
    rw [List.replicate_succ, readFrom]
    exact ih (number + 1)

/-- A class on one line is given its members, whatever they are. -/
theorem step_inlineClass (hopen : r.openClass = none) (number : ℕ) (hne : name.toList ≠ [])
    (hname : ∀ c ∈ name.toList, isNameChar c = true)
    (h : ∀ member ∈ members, IsMemberText member) :
  r.step number (Statement.inlineClass name members).toLine
    = r.adjustClass name fun c => c.addMembers members
  := by
  have hnonempty : ¬(Statement.inlineClass name members).toLine.isEmpty = true := by
    rw [List.isEmpty_iff]
    exact List.append_ne_nil_of_right_ne_nil _ (List.cons_ne_nil _ _)
  have hsemicolon : ∀ member ∈ members, ';' ∉ member := fun member hmember =>
    (h member hmember).semicolon
  simp only [step, normalize_toLine_inlineClass hname h, if_neg hnonempty, readLine, hopen,
    Statement.ofLine?_inlineClass hne hname, perform, Statement.addMembers_splitMembers _ hsemicolon]

/-- Reading the class in one line adds the members to it. -/
theorem readFrom_inlineLines (hopen : r.openClass = none) (number : ℕ) (hne : name.toList ≠ [])
    (hname : ∀ c ∈ name.toList, isNameChar c = true)
    (h : ∀ member ∈ members, IsMemberText member) :
  r.readFrom number (inlineLines name members) = r.adjustClass name fun c => c.addMembers members
  := by
  rw [inlineLines, readFrom, readFrom_replicate, step_inlineClass hopen number hne hname h]

/-! ### The block -/

/-- The reading after a change of a class that stays open. -/
def within (r : Reading) (name : String) (update : ClassNode → ClassNode) : Reading :=
  { r.adjustClass name update with openClass := some name }

variable {update : ClassNode → ClassNode}

/-- A further change of the open class is one change. -/
theorem adjustClass_within (next : ClassNode → ClassNode) :
  (r.within name update).adjustClass name next = r.within name fun c => next (update c)
  := by
  change { (r.adjustClass name update).adjustClass name next with openClass := some name } = _
  rw [adjustClass_adjustClass]
  rfl

/-- The line that opens a class declares it and leaves it open. -/
theorem step_openClass (hopen : r.openClass = none) (number : ℕ) (hne : name.toList ≠ [])
    (hname : ∀ c ∈ name.toList, isNameChar c = true) :
  r.step number (Statement.openClass name).toLine = r.within name id
  := by
  have hnonempty : ¬(Statement.openClass name).toLine.isEmpty = true := by
    rw [List.isEmpty_iff]
    exact List.append_ne_nil_of_right_ne_nil _ (List.cons_ne_nil _ _)
  simp only [step, normalize_toLine_openClass hname, if_neg hnonempty, readLine, hopen,
    ofLine?_openClass hne hname, perform, within]

/-- A line in a block adds a member; a blank one adds nothing, whether or not it is read. -/
theorem step_member (number : ℕ) {member : List Char} (h : IsMemberText member) :
  (r.within name update).step number member = r.within name fun c => (update c).addMember member
  := by
  rw [step, normalize_eq_trim h.slashes h.hash]
  split_ifs with hempty
  · have hkeep : (fun c => (update c).addMember member) = update := by
      funext c
      rw [ClassNode.addMember, if_pos hempty]
    rw [hkeep]
  · have hbrace : (trim member).contains '\x7d' = false := by
      rw [List.contains_eq_mem, decide_eq_false_iff_not]
      exact fun hmem => h.brace (trim_subset member hmem)
    have hadd : ∀ c : ClassNode, c.addMember (trim member) = c.addMember member := by
      intro c
      rw [ClassNode.addMember, trim_trim, ← ClassNode.addMember]
    change (r.within name update).performBody name (.ofLine (trim member)) = _
    rw [BodyLine.ofLine, hbrace, if_neg Bool.false_ne_true, performBody, adjustClass_within]
    simp only [hadd]

/-- The members in a block are added one after another. -/
theorem readFrom_members (number : ℕ) (h : ∀ member ∈ members, IsMemberText member) :
  (r.within name update).readFrom number members
    = r.within name fun c => (update c).addMembers members
  := by
  induction members generalizing number update with
  | nil => rfl
  | cons member rest ih =>
    obtain ⟨hmember, hrest⟩ := List.forall_mem_cons.mp h
    rw [readFrom, step_member number hmember, ih (number + 1) hrest]
    rfl

/-- A closing brace ends the block and adds nothing. -/
theorem step_brace (hopen : r.openClass = none) (number : ℕ) :
  (r.within name update).step number ['\x7d'] = r.adjustClass name update
  := by
  change { (r.within name update).adjustClass name (·.addMember []) with openClass := none } = _
  rw [adjustClass_within]
  change { r.adjustClass name update with openClass := none } = _
  rw [← hopen]
  rfl

/-- Reading the class as a block adds the members to it. -/
theorem readFrom_blockLines (hopen : r.openClass = none) (number : ℕ) (hne : name.toList ≠ [])
    (hname : ∀ c ∈ name.toList, isNameChar c = true)
    (h : ∀ member ∈ members, IsMemberText member) :
  r.readFrom number (blockLines name members) = r.adjustClass name fun c => c.addMembers members
  := by
  rw [blockLines, readFrom, step_openClass hopen number hne hname, readFrom_append,
    readFrom_members _ h, readFrom, step_brace hopen]
  rfl

/-! ### Texts -/

/-- No line of the block has a line feed. -/
theorem not_mem_blockLines (hname : ∀ c ∈ name.toList, isNameChar c = true)
    (h : ∀ member ∈ members, IsMemberText member) :
  ∀ line ∈ blockLines name members, '\n' ∉ line
  := by
  intro line hline
  rw [blockLines, List.mem_cons, List.mem_append, List.mem_singleton] at hline
  rcases hline with rfl | hline | rfl
  · exact Statement.not_mem_toLine_openClass hname rfl (by simp [Statement.marks])
  · exact (h line hline).lineFeed
  · decide

/-- The class in one line has no line feed in it. -/
theorem not_mem_inlineLines (hname : ∀ c ∈ name.toList, isNameChar c = true)
    (h : ∀ member ∈ members, IsMemberText member) :
  ∀ line ∈ inlineLines name members, '\n' ∉ line
  := by
  intro line hline
  rw [inlineLines, List.mem_cons, List.mem_replicate] at hline
  rcases hline with rfl | ⟨-, rfl⟩
  · exact Statement.not_mem_toLine_inlineClass hname (fun member hmember => (h member hmember).lineFeed)
      rfl (by decide) (by decide) (by decide) (by decide)
  · exact List.not_mem_nil

/-- The reading of a text that is written in lines. -/
theorem ofText_unlines {ls : List (List Char)} (hne : ls ≠ []) (h : ∀ line ∈ ls, '\n' ∉ line) :
  ofText (String.ofList (unlines ls)) = (initial.readFrom 1 ls).finish
  := by
  rw [ofText, String.toList_ofList, lines_unlines hne h]

/-- Wherever no class is open in a script, a class on one line, with as many empty lines behind it as the
block has more, is read as the class in a block: the model and all complaints, which tell the numbers of
lines, are the same. -/
theorem ofText_inlineLines (front back : List (List Char)) (name : String)
    (members : List (List Char)) (hfront : ∀ line ∈ front, '\n' ∉ line)
    (hback : ∀ line ∈ back, '\n' ∉ line) (hopen : (initial.readFrom 1 front).openClass = none)
    (hne : name.toList ≠ []) (hname : ∀ c ∈ name.toList, isNameChar c = true)
    (h : ∀ member ∈ members, IsMemberText member) :
  ofText (String.ofList (unlines (front ++ inlineLines name members ++ back)))
    = ofText (String.ofList (unlines (front ++ blockLines name members ++ back)))
  := by
  have hread : ∀ ls : List (List Char), ls ≠ [] → (∀ line ∈ ls, '\n' ∉ line) →
      ofText (String.ofList (unlines (front ++ ls ++ back)))
        = ((((initial.readFrom 1 front).readFrom (1 + front.length) ls).readFrom
            (1 + front.length + ls.length) back)).finish := by
    intro ls hls hfeed
    rw [ofText_unlines, List.append_assoc, readFrom_append, readFrom_append]
    · simp [hls]
    · intro line hline
      simp only [List.mem_append] at hline
      rcases hline with (hline | hline) | hline
      · exact hfront line hline
      · exact hfeed line hline
      · exact hback line hline
  rw [hread (inlineLines name members) (List.cons_ne_nil _ _) (not_mem_inlineLines hname h),
    hread (blockLines name members) (List.cons_ne_nil _ _) (not_mem_blockLines hname h),
    length_blockLines, readFrom_inlineLines hopen _ hne hname h, readFrom_blockLines hopen _ hne hname h]

/-- A class that is declared before, in a script with lines that are not understood. -/
theorem ofText_inlineLines_person :
  let front := blockLines "Person" ["age".toList] ++ ["?".toList]
  let members := [" name: String".toList, [], "greet()".toList]
  let back := ["Person -> Being".toList, "?".toList]
  (initial.readFrom 1 front).openClass = none ∧ (∀ member ∈ members, IsMemberText member)
    ∧ ofText (String.ofList (unlines (front ++ inlineLines "Person" members ++ back)))
      = ofText (String.ofList (unlines (front ++ blockLines "Person" members ++ back)))
  := by
  intro front members back
  have hopen : (initial.readFrom 1 front).openClass = none := by decide +kernel
  have hmembers : ∀ member ∈ members, IsMemberText member := by
    intro member hmember
    simp only [members, List.mem_cons, List.not_mem_nil, or_false] at hmember
    rcases hmember with rfl | rfl | rfl
    all_goals exact ⟨by decide, by decide, by decide, by decide, by decide⟩
  refine ⟨hopen, hmembers, ?_⟩
  exact ofText_inlineLines front back "Person" members (by decide +kernel) (by decide +kernel) hopen
    (by simp) (by simp [isNameChar]) hmembers

end Reading

end DiagramLayout
