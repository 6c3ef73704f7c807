import DiagramLayout.Settings.Field
import Mathlib.Data.List.Nodup
import Mathlib.Tactic

/-!
# Leaves of a content

A content has its leaves, numbers and counts, at paths of names. A document is accepted when it names
some of them, none twice and each with a value that can be read; a content is filled by it when it has
at each path the value that the document gives there. Where the document gives none, a record that it
begins has the values of one content, and a record that it leaves out those of another.
-/

namespace DiagramLayout

/-- The value at a path of keys. -/
def Document.at? : List String → Document → Option Document
  | [], d => some d
  | key :: path, d => (d.field? key).bind (at? path)

namespace Content

/-- What stands at a path of names. -/
def at? : List String → Content → Option Content
  | [], c => some c
  | name :: path, record fields => (fields.lookup name).bind (at? path)
  | _ :: _, _ => none

/-- Whether the content is a number or a count. -/
def isLeaf : Content → Bool
  | single _ => true
  | count _ => true
  | record _ => false

mutual

/-- All leaves with their paths. -/
def leaves : Content → List (List String × Content)
  | record fields => leavesOf fields
  | single x => [([], single x)]
  | count n => [([], count n)]

/-- All leaves of the fields of a record. -/
def leavesOf : List (String × Content) → List (List String × Content)
  | [] => []
  | (name, c) :: fields =>
    (leaves c).map (fun leaf => (name :: leaf.1, leaf.2)) ++ leavesOf fields

end

/-- What a document puts in the place of a leaf. -/
def given? (format : DocumentFormat) (d : Document) : Content → Option Content
  | single _ => (format.single? d).map single
  | count _ => (format.count? d).map count
  | record _ => none

mutual

/-- Whether a document gives leaves of the content, none of them twice, in objects within objects. -/
def accepts (format : DocumentFormat) : Content → Document → Bool
  | record fields, .object entries =>
    decide (entries.map Prod.fst).Nodup && acceptsEntries format fields entries
  | c, d => (c.given? format d).isSome

/-- Whether each entry of an object stands under the name of a field that accepts its value. -/
def acceptsEntries (format : DocumentFormat) (fields : List (String × Content)) :
    List (Option String × Document) → Bool
  | [] => true
  | (key, d) :: entries =>
    (match key.bind (List.lookup · fields) with
      | some c => accepts format c d
      | none => false)
    && acceptsEntries format fields entries

end

/-- The content `c` has the leaves that a document gives. Of the other leaves of `start`, those of a
record that the document begins are as in `bare`, and the rest is as in `start`. -/
def IsFilled (c : Content) (format : DocumentFormat) (d : Document) (start bare : Content) : Prop :=
  ∀ path leaf, start.at? path = some leaf → leaf.isLeaf = true →
    c.at? path = match d.at? path with
      | some value => leaf.given? format value
      | none => if (d.at? path.dropLast).isSome then bare.at? path else some leaf

variable {format : DocumentFormat}

/-- A document that is accepted for a leaf gives its value. -/
theorem accepts_leaf {c : Content} {d : Document} (hleaf : c.isLeaf = true)
    (h : c.accepts format d = true) :
  (c.given? format d).isSome = true
  := by
  cases c with
  | record => cases hleaf
  | single => simpa only [accepts] using h
  | count => simpa only [accepts] using h

/-- Each entry that is accepted names one of the fields and is accepted by it. -/
theorem exists_of_acceptsEntries {fields : List (String × Content)}
    {entries : List (Option String × Document)}
    (h : acceptsEntries format fields entries = true) {e : Option String × Document}
    (he : e ∈ entries) :
  ∃ name c, e.1 = some name ∧ fields.lookup name = some c ∧ c.accepts format e.2 = true
  := by
  induction entries with
  | nil => cases he
  | cons e' entries ih =>
    obtain ⟨key, d⟩ := e'
    rw [acceptsEntries, Bool.and_eq_true] at h
    rcases List.mem_cons.mp he with rfl | he'
    · cases hlookup : key.bind (List.lookup · fields) with
      | none => simp [hlookup] at h
      | some c =>
        obtain ⟨name, rfl, hname⟩ := Option.bind_eq_some_iff.mp hlookup
        exact ⟨name, c, rfl, hname, by simpa only [hlookup] using h.1⟩
    · exact ih h.2 he'

/-- A record is given as an object without repeated keys. -/
theorem accepts_record {fields : List (String × Content)} {d : Document}
    (h : (record fields).accepts format d = true) :
  ∃ entries, d = .object entries ∧ (entries.map Prod.fst).Nodup ∧ ∀ e ∈ entries,
    ∃ name c, e.1 = some name ∧ fields.lookup name = some c ∧ c.accepts format e.2 = true
  := by
  cases d with
  | object entries =>
    rw [accepts, Bool.and_eq_true, decide_eq_true_eq] at h
    exact ⟨entries, rfl, h.1, fun e he => exists_of_acceptsEntries h.2 he⟩
  | _ => simp [accepts, given?] at h

/-- A leaf behind a field is a leaf of the record, at the path that begins with the name of the
field. -/
theorem mem_leavesOf {fields : List (String × Content)} {name : String} {c leaf : Content}
    {path : List String} (hc : fields.lookup name = some c) (h : (path, leaf) ∈ c.leaves) :
  (name :: path, leaf) ∈ leavesOf fields
  := by
  induction fields with
  | nil => cases hc
  | cons field fields ih =>
    obtain ⟨name', c'⟩ := field
    rw [leavesOf, List.mem_append]
    rw [List.lookup_cons] at hc
    split at hc
    case h_1 heq =>
      obtain rfl := Option.some.inj hc
      obtain rfl : name = name' := by simpa using heq
      exact .inl (List.mem_map.mpr ⟨_, h, rfl⟩)
    case h_2 => exact .inr (ih hc)

/-- What stands at the end of a path is among the leaves when it is one. -/
theorem mem_leaves {c leaf : Content} {path : List String} (h : c.at? path = some leaf)
    (hleaf : leaf.isLeaf = true) :
  (path, leaf) ∈ c.leaves
  := by
  induction path generalizing c with
  | nil =>
    obtain rfl := Option.some.inj h
    cases c with
    | single => exact List.mem_singleton_self _
    | count => exact List.mem_singleton_self _
    | record => cases hleaf
  | cons name path ih =>
    cases c with
    | single => cases h
    | count => cases h
    | record fields =>
      obtain ⟨c, hlookup, hc⟩ := Option.bind_eq_some_iff.mp h
      exact mem_leavesOf hlookup (ih hc)

/-- Two contents have the same values at the leaves of `start`. -/
def AgreeAt (start c c' : Content) : Prop :=
  ∀ path leaf, start.at? path = some leaf → leaf.isLeaf = true → c.at? path = c'.at? path

/-- Contents that are filled from one document agree at all leaves. -/
theorem IsFilled.agreeAt {c c' start bare : Content} {d : Document}
    (h : c.IsFilled format d start bare) (h' : c'.IsFilled format d start bare) :
  start.AgreeAt c c'
  := by
  intro path leaf hpath hleaf
  rw [h path leaf hpath hleaf, h' path leaf hpath hleaf]

/-- Only a record has anything behind a name. -/
theorem isLeaf_of_at? {c leaf : Content} {name : String} {path : List String}
    (h : c.at? (name :: path) = some leaf) :
  c.isLeaf = false
  := by
  cases c with
  | single => cases h
  | count => cases h
  | record => rfl

end Content

/-! ### Objects -/

section Objects

variable {entries : List (Option String × Document)} {name : String} {d : Document}

/-- In an object without repeated keys a key gives the value behind it. -/
theorem Document.field?_eq_some_iff (h : (entries.map Prod.fst).Nodup) :
  field? name (.object entries) = some d ↔ (some name, d) ∈ entries
  := by
  simp only [field?, Option.map_eq_some_iff]
  constructor
  · rintro ⟨⟨key, value⟩, hfind, rfl⟩
    have hkey : key = some name := by simpa using List.find?_some hfind
    rw [← hkey]
    exact List.mem_reverse.mp (List.mem_of_find?_eq_some hfind)
  · intro hmem
    have hsome : (entries.reverse.find? fun f => f.1 == some name).isSome = true := by
      rw [List.find?_isSome]
      exact ⟨_, List.mem_reverse.mpr hmem, by simp⟩
    obtain ⟨e, hfind⟩ := Option.isSome_iff_exists.mp hsome
    have hkey : e.1 = some name := by simpa using List.find?_some hfind
    have hsame : e = (some name, d) :=
      List.inj_on_of_nodup_map h (List.mem_reverse.mp (List.mem_of_find?_eq_some hfind)) hmem hkey
    exact ⟨e, hfind, by rw [hsame]⟩

/-- An object whose names are different has nothing under the names that it does not give. -/
theorem Document.field?_eq_none_iff (h : (entries.map Prod.fst).Nodup) :
  field? name (.object entries) = none ↔ ∀ d, (some name, d) ∉ entries
  := by
  rw [Option.eq_none_iff_forall_ne_some]
  simp only [ne_eq, field?_eq_some_iff h]

end Objects

end DiagramLayout
