import DiagramLayout.Proofs.Settings.Fields

/-!
# What a settings file leaves standard

A settings file that gives some of the settings is read, and the settings have the values that it
gives. What it does not give is standard, apart from the spacings and the advances that it begins:
what it leaves out of these is standard for a spacing or for advances as such, and in most sections
something else is standard.
-/

namespace DiagramLayout

namespace Settings

/-- What the settings hold. -/
def content (s : Settings) : Content :=
  Field.contentOf fields s

/-- The settings are the standard ones with the leaves replaced that a document gives. -/
def Keeps (s : Settings) (format : DocumentFormat) (d : Document) : Prop :=
  ∀ path leaf, standard.content.at? path = some leaf → leaf.isLeaf = true →
    s.content.at? path = match d.at? path with
      | some value => leaf.given? format value
      | none => some leaf

/-- The paths of the settings whose standard value is not the one that is standard for the spacing or
the advances that they belong to. -/
def special : List (List String) :=
  [["usecase", "route", "padding"],
   ["usecase", "route", "stub_length"],
   ["sequence", "route", "grid_size"],
   ["sequence", "route", "padding"],
   ["sequence", "route", "stub_length"],
   ["class", "route", "padding"],
   ["state", "route", "grid_size"],
   ["state", "route", "padding"],
   ["state", "route", "stub_length"],
   ["label", "char_widths", "wide"],
   ["label", "char_widths", "space"]]

/-- Whether `bare` has the leaf at the path. -/
def isPlain (path : List String) : Content → Bool
  | .single x =>
    match bare.content.at? path with
    | some (.single y) => x = y
    | _ => false
  | .count n =>
    match bare.content.at? path with
    | some (.count m) => n = m
    | _ => false
  | .record _ => false

/-- A leaf is plain when `bare` has it at the same path. -/
theorem isPlain_iff {path : List String} {leaf : Content} (hleaf : leaf.isLeaf = true) :
  isPlain path leaf = true ↔ bare.content.at? path = some leaf
  := by
  cases leaf with
  | record => cases hleaf
  | single x =>
    simp only [isPlain]
    split
    case h_1 y hy => simp [hy, eq_comm]
    case h_2 hother => simpa using hother x
  | count n =>
    simp only [isPlain]
    split
    case h_1 m hm => simp [hm, eq_comm]
    case h_2 hother => simpa using hother n

/-- The settings with spacings and advances that are standard for their kind have other values than
the standard settings at the special paths, and nowhere else. -/
theorem at?_bare {path : List String} {leaf : Content}
    (hpath : standard.content.at? path = some leaf) (hleaf : leaf.isLeaf = true) :
  bare.content.at? path = some leaf ↔ path ∉ special
  := by
  have hleaves : ∀ l ∈ standard.content.leaves, isPlain l.1 l.2 = !decide (l.1 ∈ special) := by
    decide +kernel
  rw [← isPlain_iff hleaf, hleaves (path, leaf) (Content.mem_leaves hpath hleaf),
    Bool.not_eq_true', decide_eq_false_iff_not]

/-- The standard settings have a leaf at every special path. -/
theorem exists_at?_of_mem_special {path : List String} (h : path ∈ special) :
  ∃ leaf, standard.content.at? path = some leaf ∧ leaf.isLeaf = true
  := by
  simp only [special, List.mem_cons, List.not_mem_nil, or_false] at h
  rcases h with rfl | rfl | rfl | rfl | rfl | rfl | rfl | rfl | rfl | rfl | rfl
  all_goals exact ⟨_, rfl, rfl⟩

section Filled

variable {format : DocumentFormat} {d : Document} {s : Settings}

/-- Settings that a document fills keep what is standard when the document leaves nothing special out
of the spacings and the advances that it begins. -/
theorem keeps_iff_of_isFilled
    (h : s.content.IsFilled format d standard.content bare.content) :
  s.Keeps format d ↔ ∀ path ∈ special, (d.at? path.dropLast).isSome = true → (d.at? path).isSome = true
  := by
  constructor
  · intro hkeeps path hspecial hbegun
    by_contra habsent
    rw [Bool.not_eq_true, Option.isSome_eq_false_iff, Option.isNone_iff_eq_none] at habsent
    obtain ⟨leaf, hpath, hleaf⟩ := exists_at?_of_mem_special hspecial
    have hbare : s.content.at? path = bare.content.at? path := by
      simpa only [habsent, hbegun, if_true] using h path leaf hpath hleaf
    have hkept : s.content.at? path = some leaf := by
      simpa only [habsent] using hkeeps path leaf hpath hleaf
    exact (at?_bare hpath hleaf).mp (hbare.symm.trans hkept) hspecial
  · intro hgiven path leaf hpath hleaf
    rw [h path leaf hpath hleaf]
    cases hvalue : d.at? path with
    | some value => rfl
    | none =>
      by_cases hbegun : (d.at? path.dropLast).isSome = true
      · have hplain : path ∉ special := by
          intro hspecial
          have hsome := hgiven path hspecial hbegun
          rw [hvalue] at hsome
          cases hsome
        simpa only [hbegun, if_true] using (at?_bare hpath hleaf).mpr hplain
      · simp only [hbegun, Bool.false_eq_true, if_false]

end Filled

/-- A file that names some of the settings is loaded, and the settings are those that it fills. Every
other setting is the standard one if and only if the file leaves nothing special out of the spacings
and the advances that it begins. -/
theorem ofFile_fills {path text : String} {d : Document}
    (hread : (DocumentFormat.ofPath path).read? text = some d)
    (haccepts : standard.content.accepts (DocumentFormat.ofPath path) d = true) :
  ∃ s, ofFile path (some text) = .ok s
    ∧ s.content.IsFilled (DocumentFormat.ofPath path) d standard.content bare.content
    ∧ (∀ t : Settings,
      t.content.IsFilled (DocumentFormat.ofPath path) d standard.content bare.content → t = s)
    ∧ (s.Keeps (DocumentFormat.ofPath path) d ↔ ∀ path ∈ special,
      (d.at? path.dropLast).isSome = true → (d.at? path).isSome = true)
  := by
  obtain ⟨s, hs, hfilled⟩ := areSound_fields.readRecord?_eq haccepts
  change s.content.IsFilled _ d standard.content bare.content at hfilled
  have htext : ofText? (DocumentFormat.ofPath path) text = some s := by
    rw [ofText?, hread, Option.bind_some, hs]
  refine ⟨s, ?_, hfilled, ?_, keeps_iff_of_isFilled hfilled⟩
  · simp only [ofFile, htext]
  · intro t ht
    exact areSound_fields.eq_of_agreeAt (ht.agreeAt hfilled)

/-- A file that gives the pitch of the grid for sequence diagrams. -/
def wideGrid : String :=
  "\x7b\"sequence\":\x7b\"route\":\x7b\"grid_size\":20\x7d\x7d\x7d"

/-- The text with a wider grid is a document. -/
theorem isSome_wideGrid :
  ((DocumentFormat.ofPath "c.json").read? wideGrid).isSome = true
  := by
  decide +kernel

/-- The document that a text holds. -/
def wideGridDocument : Document :=
  ((DocumentFormat.ofPath "c.json").read? wideGrid).get isSome_wideGrid

/-- The document with a wider grid is accepted. -/
theorem accepts_wideGrid :
  standard.content.accepts (DocumentFormat.ofPath "c.json") wideGridDocument = true
  := by
  decide +kernel

/-- The settings with a wider grid are read, and are the only ones that are filled from the
document. -/
theorem ofFile_fills_wideGrid :
  ∃ s, ofFile "c.json" (some wideGrid) = .ok s
    ∧ s.content.IsFilled (DocumentFormat.ofPath "c.json") wideGridDocument standard.content
      bare.content
    ∧ (∀ t : Settings, t.content.IsFilled (DocumentFormat.ofPath "c.json") wideGridDocument
      standard.content bare.content → t = s)
    ∧ (s.Keeps (DocumentFormat.ofPath "c.json") wideGridDocument ↔ ∀ path ∈ special,
      (wideGridDocument.at? path.dropLast).isSome = true →
        (wideGridDocument.at? path).isSome = true)
  := ofFile_fills (Option.some_get isSome_wideGrid).symm accepts_wideGrid

/-- The file names one setting and changes three: the padding and the stubs of the section are not the
standard ones any more. -/
theorem not_keeps_wideGrid :
  ∃ d s, (DocumentFormat.ofPath "c.json").read? wideGrid = some d
    ∧ standard.content.accepts (DocumentFormat.ofPath "c.json") d = true
    ∧ ofFile "c.json" (some wideGrid) = .ok s ∧ ¬ s.Keeps (DocumentFormat.ofPath "c.json") d
  := by
  have hloaded : ofFile "c.json" (some wideGrid)
      = .ok { sequence := { route := ⟨20.0, 14.0, 14.0⟩ } } := by
    decide +kernel
  have habsent : wideGridDocument.at? ["sequence", "route", "padding"] = none := by
    rw [← Option.isNone_iff_eq_none]
    decide +kernel
  refine ⟨wideGridDocument, _, (Option.some_get isSome_wideGrid).symm, accepts_wideGrid, hloaded, ?_⟩
  intro hkeeps
  have hpadding := hkeeps ["sequence", "route", "padding"] (.single 6.0) rfl rfl
  rw [habsent] at hpadding
  have hsame : (14.0 : Float32) = 6.0 := Content.single.inj (Option.some.inj hpadding)
  revert hsame
  decide +kernel

end Settings

end DiagramLayout
