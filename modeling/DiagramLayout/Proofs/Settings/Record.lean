import DiagramLayout.Proofs.Settings.Content

/-!
# Reading records

The fields of a record with different names that set different parts of it can be given in any order
and number: the document is read, the fields that it gives are read from it, and the others are those
that the record began with.
-/

namespace DiagramLayout

namespace Field

variable {σ τ : Type}

/-- A field is read from every document that it accepts, and then it is filled. In a record that is
begun at `initial` it holds the number of `bare` or the record of `start`. What it holds is determined
by its leaves. -/
structure IsSound (f : Field σ) (initial start bare : σ) : Prop where
  read : ∀ format d s, (f.content start).accepts format d = true → ∃ s', f.read? format d s = some s' ∧
    (f.content s').IsFilled format d (f.content start) (f.content bare)
  begun : f.content initial = if (f.content start).isLeaf then f.content bare else f.content start
  determined : ∀ s t, (f.content start).AgreeAt (f.content s) (f.content t) → f.content s = f.content t

/-- Reading the field `f` does not change what the field `g` holds. -/
def Spares (f g : Field σ) : Prop :=
  ∀ format d s s', f.read? format d s = some s' → g.content s' = g.content s

/-- No field changes what another one holds. -/
def Apart (fields : List (Field σ)) : Prop :=
  fields.Pairwise fun f g => f.Spares g ∧ g.Spares f

theorem apart_nil :
  Apart ([] : List (Field σ))
  := List.Pairwise.nil

/-- A field is apart from the others when neither changes what the other holds. -/
theorem apart_cons {f : Field σ} {fields : List (Field σ)} :
  Apart (f :: fields) ↔ fields.Forall (fun g => f.Spares g ∧ g.Spares f) ∧ Apart fields
  := by
  rw [Apart, List.pairwise_cons, List.forall_iff_forall_mem, Apart]

/-- The fields of a record: their names are different, they do not change each other, each of them is
sound, and the record has nothing that they do not hold. -/
structure AreSound (fields : List (Field σ)) (initial start bare : σ) : Prop where
  names : (fields.map Field.name).Nodup
  apart : Apart fields
  sound : fields.Forall fun f => f.IsSound initial start bare
  complete : ∀ s t, (∀ f ∈ fields, f.content s = f.content t) → s = t

/-! ### Single fields -/

@[simp]
theorem name_single (name : String) (get : σ → Float32) (set : σ → Float32 → σ) :
  (single name get set).name = name
  := rfl

@[simp]
theorem name_count (name : String) (get : σ → ℕ) (set : σ → ℕ → σ) :
  (count name get set).name = name
  := rfl

@[simp]
theorem name_record (name : String) (fields : List (Field τ)) (first : τ) (get : σ → τ)
    (set : σ → τ → σ) :
  (record name fields first get set).name = name
  := rfl

@[simp]
theorem content_single (name : String) (get : σ → Float32) (set : σ → Float32 → σ) (s : σ) :
  (single name get set).content s = .single (get s)
  := rfl

@[simp]
theorem content_count (name : String) (get : σ → ℕ) (set : σ → ℕ → σ) (s : σ) :
  (count name get set).content s = .count (get s)
  := rfl

@[simp]
theorem content_record (name : String) (fields : List (Field τ)) (first : τ) (get : σ → τ)
    (set : σ → τ → σ) (s : σ) :
  (record name fields first get set).content s = contentOf fields (get s)
  := rfl

variable {initial start bare : σ}

/-- A field that holds a leaf and is set to what a document puts in its place is sound. -/
theorem isSound_leaf {α : Type} {f : Field σ} {get : σ → α} {set : σ → α → σ} (leaf : α → Content)
    (value : DocumentFormat → Document → Option α) (hleaf : ∀ x, (leaf x).isLeaf = true)
    (hgiven : ∀ format d x, (leaf x).given? format d = (value format d).map leaf)
    (hread : ∀ format d s, f.read? format d s = (value format d).map (set s))
    (hcontent : ∀ s, f.content s = leaf (get s)) (hset : ∀ s x, get (set s x) = x)
    (hbegun : get initial = get bare) :
  f.IsSound initial start bare
  := by
  have hstart : (f.content start).isLeaf = true := by rw [hcontent, hleaf]
  constructor
  case begun => rw [if_pos hstart, hcontent, hcontent, hbegun]
  case determined => exact fun s t hagree => Option.some.inj (hagree [] _ rfl hstart)
  case read =>
    intro format d s haccepts
    obtain ⟨c, hc⟩ := Option.isSome_iff_exists.mp (Content.accepts_leaf hstart haccepts)
    have hvalue : (value format d).map leaf = some c := by rw [← hgiven _ _ (get start), ← hcontent, hc]
    obtain ⟨x, hx, rfl⟩ := Option.map_eq_some_iff.mp hvalue
    refine ⟨set s x, by rw [hread, hx, Option.map_some], ?_⟩
    intro path c hpath _
    cases path with
    | nil =>
      obtain rfl := Option.some.inj hpath
      rw [hcontent (set s x), hset, Content.at?, Document.at?]
      exact hc.symm
    | cons name path =>
      rw [Content.isLeaf_of_at? hpath] at hstart
      cases hstart

/-- A number is a sound field, if it gives back what is set and begins as in `bare`. -/
theorem isSound_single {name : String} {get : σ → Float32} {set : σ → Float32 → σ}
    (hset : ∀ s x, get (set s x) = x) (hbegun : get initial = get bare) :
  (Field.single name get set).IsSound initial start bare
  := isSound_leaf Content.single DocumentFormat.single? (fun _ => rfl) (fun _ _ _ => rfl)
    (fun _ _ _ => rfl) (fun _ => rfl) hset hbegun

/-- A count is a sound field, if it gives back what is set and begins as in `bare`. -/
theorem isSound_count {name : String} {get : σ → ℕ} {set : σ → ℕ → σ}
    (hset : ∀ s n, get (set s n) = n) (hbegun : get initial = get bare) :
  (Field.count name get set).IsSound initial start bare
  := isSound_leaf Content.count DocumentFormat.count? (fun _ => rfl) (fun _ _ _ => rfl)
    (fun _ _ _ => rfl) (fun _ => rfl) hset hbegun

/-! ### Records -/

variable {fields : List (Field σ)} {format : DocumentFormat}

/-- Names find their fields. -/
theorem find?_eq (h : (fields.map Field.name).Nodup) {f : Field σ} (hf : f ∈ fields) :
  fields.find? (fun g => g.name == f.name) = some f
  := by
  have hsome : (fields.find? fun g => g.name == f.name).isSome = true := by
    rw [List.find?_isSome]
    exact ⟨f, hf, beq_self_eq_true _⟩
  obtain ⟨g, hfind⟩ := Option.isSome_iff_exists.mp hsome
  have hname : g.name = f.name := by simpa using List.find?_some hfind
  rw [hfind, List.inj_on_of_nodup_map h (List.mem_of_find?_eq_some hfind) hf hname]

/-- The content of a record has under the name of a field what the field holds. -/
theorem lookup_contentOf (h : (fields.map Field.name).Nodup) {f : Field σ} (hf : f ∈ fields) (s : σ) :
  (fields.map fun g => (g.name, g.content s)).lookup f.name = some (f.content s)
  := by
  induction fields with
  | nil => cases hf
  | cons g fields ih =>
    rw [List.map_cons, List.nodup_cons] at h
    rw [List.map_cons, List.lookup_cons]
    rcases List.mem_cons.mp hf with rfl | hf'
    · rw [beq_self_eq_true]
    · have hne : f.name ≠ g.name := fun hname =>
        h.1 (hname ▸ List.mem_map_of_mem (f := Field.name) hf')
      rw [beq_false_of_ne hne]
      exact ih h.2 hf'

/-- A path into a record leads through the field that it names first. -/
theorem at?_contentOf (h : (fields.map Field.name).Nodup) {f : Field σ} (hf : f ∈ fields)
    (path : List String) (s : σ) :
  (contentOf fields s).at? (f.name :: path) = (f.content s).at? path
  := by
  rw [contentOf, Content.at?, lookup_contentOf h hf, Option.bind_some]

/-- What a record has under a name is held by a field of this name. -/
theorem exists_of_lookup {name : String} {s : σ} {c : Content}
    (hc : (fields.map fun f => (f.name, f.content s)).lookup name = some c) :
  ∃ f ∈ fields, f.name = name ∧ f.content s = c
  := by
  obtain ⟨before, after, hsplit, -⟩ := List.lookup_eq_some_iff.mp hc
  have hmem : (name, c) ∈ fields.map fun f => (f.name, f.content s) := by
    rw [hsplit]
    exact List.mem_append_right _ List.mem_cons_self
  obtain ⟨f, hf, hpair⟩ := List.mem_map.mp hmem
  exact ⟨f, hf, Prod.mk.inj hpair⟩

/-- What a record has at a path is held by the field that the path names first. -/
theorem exists_of_at?_contentOf {name : String} {path : List String} {s : σ} {c : Content}
    (hc : (contentOf fields s).at? (name :: path) = some c) :
  ∃ f ∈ fields, f.name = name ∧ (f.content s).at? path = some c
  := by
  obtain ⟨content, hlookup, hc⟩ := Option.bind_eq_some_iff.mp hc
  obtain ⟨f, hf, hname, rfl⟩ := exists_of_lookup hlookup
  exact ⟨f, hf, hname, hc⟩

theorem AreSound.isSound (h : AreSound fields initial start bare) {f : Field σ} (hf : f ∈ fields) :
  f.IsSound initial start bare
  := List.forall_iff_forall_mem.mp h.sound f hf

/-- Fields of different names do not change each other. -/
theorem AreSound.spares (h : AreSound fields initial start bare) {f g : Field σ} (hf : f ∈ fields)
    (hg : g ∈ fields) (hne : f.name ≠ g.name) :
  f.Spares g
  := by
  have hsymm : Std.Symm fun f g : Field σ => f.Spares g ∧ g.Spares f :=
    ⟨fun _ _ hfg => hfg.symm⟩
  exact (List.Pairwise.forall h.apart hf hg fun hsame => hne (congrArg Field.name hsame)).1

/-- The record `r` is `s` with the fields filled that the entries of an object give. -/
def HasRead (format : DocumentFormat) (fields : List (Field σ)) (start bare : σ)
    (entries : List (Option String × Document)) (s r : σ) : Prop :=
  ∀ f ∈ fields,
    (∀ d, (some f.name, d) ∈ entries →
      (f.content r).IsFilled format d (f.content start) (f.content bare))
    ∧ ((∀ d, (some f.name, d) ∉ entries) → f.content r = f.content s)

/-- Without entries a record stays as it is. -/
theorem hasRead_nil (s : σ) :
  HasRead format fields start bare [] s s
  := by
  intro f _
  exact ⟨fun d hd => absurd hd List.not_mem_nil, fun _ => rfl⟩

/-- A field that is read once has been read when the entries behind it have been read. -/
theorem AreSound.hasRead_cons (h : AreSound fields initial start bare) {f : Field σ} (hf : f ∈ fields)
    {d : Document} {entries : List (Option String × Document)}
    (honce : some f.name ∉ entries.map Prod.fst) {s s' r : σ} (hs' : f.read? format d s = some s')
    (hfilled : (f.content s').IsFilled format d (f.content start) (f.content bare))
    (hrest : HasRead format fields start bare entries s' r) :
  HasRead format fields start bare ((some f.name, d) :: entries) s r
  := by
  intro g hg
  obtain ⟨hgiven, habsent⟩ := hrest g hg
  by_cases hname : g.name = f.name
  · obtain rfl := List.inj_on_of_nodup_map h.names hg hf hname
    have hlast : ∀ d', (some g.name, d') ∉ entries := fun d' hmem =>
      honce (List.mem_map.mpr ⟨_, hmem, rfl⟩)
    constructor
    · intro d' hmem
      rcases List.mem_cons.mp hmem with hhead | htail
      · obtain rfl := (Prod.mk.inj hhead).2
        rw [habsent hlast]
        exact hfilled
      · exact absurd htail (hlast d')
    · intro hnone
      exact absurd List.mem_cons_self (hnone d)
  · have hkept : g.content s' = g.content s := h.spares hf hg (Ne.symm hname) format d s s' hs'
    constructor
    · intro d' hmem
      rcases List.mem_cons.mp hmem with hhead | htail
      · exact absurd (Option.some.inj (Prod.mk.inj hhead).1) hname
      · exact hgiven d' htail
    · intro hnone
      rw [habsent fun d' hmem => hnone d' (List.mem_cons_of_mem _ hmem), hkept]

/-- The entries of an object are read one after another. -/
theorem AreSound.readEntries?_eq (h : AreSound fields initial start bare)
    {entries : List (Option String × Document)} (hkeys : (entries.map Prod.fst).Nodup)
    (haccepts : ∀ e ∈ entries, ∃ f ∈ fields, e.1 = some f.name ∧
      (f.content start).accepts format e.2 = true) (seen : List String)
    (hseen : ∀ name ∈ seen, some name ∉ entries.map Prod.fst) (s : σ) :
  ∃ r, readEntries? format fields seen entries s = some r
    ∧ HasRead format fields start bare entries s r
  := by
  induction entries generalizing seen s with
  | nil => exact ⟨s, rfl, hasRead_nil s⟩
  | cons e entries ih =>
    obtain ⟨key, d⟩ := e
    obtain ⟨f, hf, hkey, hd⟩ := haccepts (key, d) List.mem_cons_self
    simp only at hkey hd
    subst hkey
    rw [List.map_cons, List.nodup_cons] at hkeys
    have hfresh : f.name ∉ seen := fun hmem =>
      hseen f.name hmem (List.mem_map_of_mem (f := Prod.fst) List.mem_cons_self)
    have hseen' : ∀ name ∈ f.name :: seen, some name ∉ entries.map Prod.fst := by
      intro name hmem
      rcases List.mem_cons.mp hmem with rfl | hmem'
      · exact hkeys.1
      · exact fun hname => hseen name hmem' (List.mem_cons_of_mem _ hname)
    obtain ⟨s', hs', hfilled⟩ := (h.isSound hf).read format d s hd
    obtain ⟨r, hr, hrest⟩ := ih hkeys.2 (fun e he => haccepts e (List.mem_cons_of_mem _ he)) _
      hseen' s'
    refine ⟨r, ?_, h.hasRead_cons hf hkeys.1 hs' hfilled hrest⟩
    rw [readEntries?, find?_eq h.names hf]
    simp only [if_neg hfresh, hs', Option.bind_some, hr]

/-- A record is filled by an object when each field that the object gives is filled, and the others are
as in the record that was begun. -/
theorem AreSound.isFilled (h : AreSound fields initial start bare)
    {entries : List (Option String × Document)} (hkeys : (entries.map Prod.fst).Nodup) {r : σ}
    (hread : HasRead format fields start bare entries initial r) :
  (contentOf fields r).IsFilled format (.object entries) (contentOf fields start)
    (contentOf fields bare)
  := by
  intro path leaf hpath hleaf
  cases path with
  | nil =>
    obtain rfl := Option.some.inj hpath
    cases hleaf
  | cons name path =>
    obtain ⟨f, hf, rfl, hinner⟩ := exists_of_at?_contentOf hpath
    obtain ⟨hgiven, habsent⟩ := hread f hf
    rw [at?_contentOf h.names hf, at?_contentOf h.names hf, Document.at?]
    cases hfield : Document.field? f.name (.object entries) with
    | some d =>
      rw [hgiven d ((Document.field?_eq_some_iff hkeys).mp hfield) path leaf hinner hleaf]
      cases path with
      | nil => rfl
      | cons name path => simp only [List.dropLast, Document.at?, hfield, Option.bind_some]
    | none =>
      rw [habsent ((Document.field?_eq_none_iff hkeys).mp hfield), (h.isSound hf).begun]
      cases path with
      | nil =>
        obtain rfl := Option.some.inj hinner
        rw [if_pos hleaf]
        rfl
      | cons name path =>
        have hrecord : (f.content start).isLeaf = false := Content.isLeaf_of_at? hinner
        simp only [hrecord, List.dropLast, Document.at?, hfield, Option.bind_none, hinner,
          Option.isSome_none, Bool.false_eq_true, if_false]

/-- An object of some of the fields is read, and then the record is filled. -/
theorem AreSound.readRecord?_eq (h : AreSound fields initial start bare) {d : Document}
    (haccepts : (contentOf fields start).accepts format d = true) :
  ∃ r, readRecord? format fields initial d = some r ∧
    (contentOf fields r).IsFilled format d (contentOf fields start) (contentOf fields bare)
  := by
  obtain ⟨entries, rfl, hkeys, hvalues⟩ := Content.accepts_record haccepts
  have hentries : ∀ e ∈ entries, ∃ f ∈ fields, e.1 = some f.name ∧
      (f.content start).accepts format e.2 = true := by
    intro e he
    obtain ⟨name, c, hkey, hlookup, hvalue⟩ := hvalues e he
    obtain ⟨f, hf, rfl, rfl⟩ := exists_of_lookup hlookup
    exact ⟨f, hf, hkey, hvalue⟩
  obtain ⟨r, hr, hread⟩ := h.readEntries?_eq hkeys hentries []
    (fun name hname => absurd hname List.not_mem_nil) initial
  exact ⟨r, hr, h.isFilled hkeys hread⟩

/-- Records with sound fields are equal when their contents are. -/
theorem AreSound.contentOf_inj (h : AreSound fields initial start bare) {s t : σ} :
  contentOf fields s = contentOf fields t ↔ s = t
  := by
  constructor
  · intro hcontent
    apply h.complete
    intro f hf
    exact (Prod.mk.inj (List.map_inj_left.mp (Content.record.inj hcontent) f hf)).2
  · exact congrArg (contentOf fields)

/-- A record is determined by its leaves. -/
theorem AreSound.eq_of_agreeAt (h : AreSound fields initial start bare) {s t : σ}
    (hagree : (contentOf fields start).AgreeAt (contentOf fields s) (contentOf fields t)) :
  s = t
  := by
  apply h.complete
  intro f hf
  apply (h.isSound hf).determined
  intro path leaf hpath hleaf
  rw [← at?_contentOf h.names hf] at hpath ⊢
  rw [← at?_contentOf h.names hf]
  exact hagree (f.name :: path) leaf hpath hleaf

/-- A field that holds a record of sound fields is sound. -/
theorem isSound_record {name : String} {fields : List (Field τ)} {first : τ} {get : σ → τ}
    {set : σ → τ → σ} (hset : ∀ s x, get (set s x) = x) (hbegun : get initial = get start)
    (h : AreSound fields first (get start) (get bare)) :
  (Field.record name fields first get set).IsSound initial start bare
  := by
  constructor
  case begun => exact congrArg (contentOf fields) hbegun
  case determined => exact fun s t hagree => congrArg (contentOf fields) (h.eq_of_agreeAt hagree)
  case read =>
    intro format d s haccepts
    obtain ⟨r, hr, hfilled⟩ := h.readRecord?_eq haccepts
    refine ⟨set s r, Option.map_eq_some_iff.mpr ⟨r, hr, rfl⟩, ?_⟩
    have hcontent : (Field.record name fields first get set).content (set s r) = contentOf fields r :=
      congrArg (contentOf fields) (hset s r)
    rw [hcontent]
    exact hfilled

/-- A field that is set to a value of a document spares what the setting of values does not
change. -/
theorem spares_of_map {α : Type} {f g : Field σ} {value : DocumentFormat → Document → Option α}
    {set : σ → α → σ} (hread : ∀ format d s, f.read? format d s = (value format d).map (set s))
    (h : ∀ s x, g.content (set s x) = g.content s) :
  f.Spares g
  := by
  intro format d s s' hs'
  rw [hread] at hs'
  obtain ⟨x, -, rfl⟩ := Option.map_eq_some_iff.mp hs'
  exact h s x

end Field

end DiagramLayout
