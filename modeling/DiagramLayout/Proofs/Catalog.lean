import DiagramLayout.Catalog
import Mathlib.Data.List.Induction
import Mathlib.Data.List.Nodup

/-!
# Looking into catalogs

The keys of a catalog are distinct, so a value is found exactly where an entry holds it. Putting a value
under a key replaces one entry in its place or adds one behind all others, and is seen under this key
only.
-/

namespace DiagramLayout.Catalog

variable {α : Type} {c : Catalog α} {key other : String} {value : α}

/-! ### Finding -/

/-- Nothing is found exactly under the names that are not keys. -/
theorem find?_eq_none_iff :
  c.find? key = none ↔ key ∉ c.keys
  := by
  simp only [find?, keys, List.lookup_eq_none_iff, List.mem_map, bne_iff_ne, not_exists, not_and]
  apply forall₂_congr
  intro e _
  rw [ne_comm]

/-- Something is found exactly under the keys. -/
theorem exists_find?_iff :
  (∃ value, c.find? key = some value) ↔ key ∈ c.keys
  := by
  rw [← not_iff_not, ← find?_eq_none_iff, Option.eq_none_iff_forall_ne_some, not_exists]

/-- A catalog contains the names that are its keys. -/
theorem contains_iff :
  c.contains key = true ↔ key ∈ c.keys
  := by
  rw [contains, Option.isSome_iff_exists, exists_find?_iff]

/-- What is found under a name is the entry of that name, since no name has two. -/
theorem find?_eq_some_iff :
  c.find? key = some value ↔ (key, value) ∈ c.entries
  := by
  have hmem : ∀ {found}, c.find? key = some found → (key, found) ∈ c.entries := by
    intro found h
    obtain ⟨front, back, hentries, -⟩ := List.lookup_eq_some_iff.mp h
    rw [hentries]
    apply List.mem_append_right
    apply List.mem_cons_self
  constructor
  · apply hmem
  · intro h
    obtain ⟨found, hfound⟩ := exists_find?_iff.mpr (List.mem_map_of_mem h)
    have heq := List.inj_on_of_nodup_map c.nodup (hmem hfound) h rfl
    rw [hfound, (Prod.mk.inj heq).2]

theorem mem_values_of_find? (h : c.find? key = some value) :
  value ∈ c.values
  := List.mem_map_of_mem (find?_eq_some_iff.mp h)

/-! ### Putting -/

/-- After a value is put under a name, the entries are the new one and the old ones of other
names. -/
theorem mem_entries_put {e : String × α} :
  e ∈ (c.put key value).entries ↔ e = (key, value) ∨ e ∈ c.entries ∧ e.1 ≠ key
  := by
  rw [entries_put]
  split_ifs with hkey
  · rw [replaced, List.mem_map]
    constructor
    · rintro ⟨old, hold, rfl⟩
      split_ifs with h
      · left
        rfl
      · right
        exact ⟨hold, h⟩
    · rintro (rfl | ⟨he, hne⟩)
      · obtain ⟨old, hold, rfl⟩ := List.mem_map.mp hkey
        exact ⟨old, hold, if_pos rfl⟩
      · exact ⟨e, he, if_neg hne⟩
  · rw [List.mem_append, List.mem_singleton, or_comm]
    apply or_congr_right
    rw [iff_self_and]
    rintro he rfl
    apply hkey (List.mem_map_of_mem he)

/-- What is put under a key is found under this key, and what is found under others stays. -/
theorem find?_put :
  (c.put key value).find? other = if other = key then some value else c.find? other
  := by
  apply Option.ext
  intro found
  rw [find?_eq_some_iff, mem_entries_put, Prod.mk.injEq]
  split_ifs with h
  · rw [Option.some.injEq, eq_comm (a := value)]
    simp [h]
  · rw [find?_eq_some_iff]
    simp [h]

/-- An adjustment changes what is found under its own name and nothing else. -/
theorem find?_adjust (default : α) (update : α → α) :
  (c.adjust key default update).find? other
    = if other = key then some (update ((c.find? key).getD default)) else c.find? other
  := by
  rw [adjust, find?_put]

/-- Putting a value adds at most its own name to the keys. -/
theorem mem_keys_put :
  other ∈ (c.put key value).keys ↔ other ∈ c.keys ∨ other = key
  := by
  rw [keys_put]
  split_ifs with h
  · rw [iff_self_or]
    rintro rfl
    exact h
  · rw [List.mem_append, List.mem_singleton]

/-- The keys of a catalog built from a list are the names of the list. -/
theorem mem_keys_ofList {entries : List (String × α)} :
  key ∈ (ofList entries).keys ↔ key ∈ entries.map Prod.fst
  := by
  have hfold : ∀ c : Catalog α, key ∈ (entries.foldl (fun c e => c.put e.1 e.2) c).keys
      ↔ key ∈ c.keys ∨ key ∈ entries.map Prod.fst := by
    induction entries with
    | nil => simp
    | cons e rest ih =>
      intro c
      rw [List.foldl_cons, ih, mem_keys_put, List.map_cons, List.mem_cons, or_assoc]
  rw [ofList, hfold, or_iff_right]
  apply List.not_mem_nil

/-- Of the entries of a key the last one is found. -/
theorem find?_ofList (entries : List (String × α)) :
  (ofList entries).find? key = (entries.filter fun e => e.1 = key).getLast?.map Prod.snd
  := by
  induction entries using List.reverseRecOn with
  | nil => rfl
  | append_singleton front e ih =>
    rw [ofList, List.foldl_append, ← ofList, List.foldl_cons, List.foldl_nil, find?_put,
      List.filter_append]
    by_cases hkey : e.1 = key
    · rw [if_pos hkey.symm, List.filter_cons_of_pos (by simpa using hkey), List.filter_nil,
        List.getLast?_concat, Option.map_some]
    · rw [if_neg (Ne.symm hkey), List.filter_cons_of_neg (by simpa using hkey), List.filter_nil,
        List.append_nil, ih]

/-- An adjustment adds at most its own name to the keys. -/
theorem mem_keys_adjust (default : α) (update : α → α) :
  other ∈ (c.adjust key default update).keys ↔ other ∈ c.keys ∨ other = key
  := by
  rw [adjust, mem_keys_put]

/-- A property of all entries stays one, when the entry that is put has it. -/
theorem forall_entries_put {P : String → α → Prop} (hvalue : P key value)
    (h : ∀ e ∈ c.entries, P e.1 e.2) :
  ∀ e ∈ (c.put key value).entries, P e.1 e.2
  := by
  intro e he
  rcases mem_entries_put.mp he with rfl | ⟨he, -⟩
  · exact hvalue
  · exact h e he

theorem eq_or_mem_values_put {found : α} (h : found ∈ (c.put key value).values) :
  found = value ∨ found ∈ c.values
  := by
  obtain ⟨e, he, rfl⟩ := List.mem_map.mp h
  refine forall_entries_put (P := fun _ found => found = value ∨ found ∈ c.values) (Or.inl rfl) ?_ e he
  exact fun e he => Or.inr (List.mem_map_of_mem he)

/-- A property of all entries of a list is one of the catalog built from it. -/
theorem forall_entries_ofList {P : String → α → Prop} {entries : List (String × α)}
    (h : ∀ e ∈ entries, P e.1 e.2) :
  ∀ e ∈ (ofList entries).entries, P e.1 e.2
  := by
  have hfold : ∀ c : Catalog α, (∀ e ∈ c.entries, P e.1 e.2) →
      ∀ e ∈ (entries.foldl (fun c e => c.put e.1 e.2) c).entries, P e.1 e.2 := by
    induction entries with
    | nil => exact fun _ hc => hc
    | cons e rest ih =>
      intro c hc
      obtain ⟨he, hrest⟩ := List.forall_mem_cons.mp h
      exact ih hrest _ (forall_entries_put he hc)
  apply hfold
  exact nofun

/-- What holds of all entries is kept by a change of one of them that keeps it. -/
theorem forall_entries_adjust {P : String → α → Prop} {default : α} {update : α → α}
    (hdefault : P key default) (hupdate : ∀ value, P key value → P key (update value))
    (h : ∀ e ∈ c.entries, P e.1 e.2) :
  ∀ e ∈ (c.adjust key default update).entries, P e.1 e.2
  := by
  refine forall_entries_put (hupdate _ ?_) h
  cases hfind : c.find? key with
  | none => exact hdefault
  | some found => apply h _ (find?_eq_some_iff.mp hfind)

/-- A value that is put under a key that is there stands in the place of the old one. -/
theorem exists_entries_put (h : c.find? key = some value) :
  ∃ front back, c.entries = front ++ (key, value) :: back
    ∧ ∀ new, (c.put key new).entries = front ++ (key, new) :: back
  := by
  obtain ⟨front, back, hentries, -⟩ := List.lookup_eq_some_iff.mp h
  refine ⟨front, back, hentries, ?_⟩
  intro new
  have hnodup := c.nodup
  rw [hentries, List.map_append, List.map_cons, List.nodup_middle, List.nodup_cons,
    ← List.map_append] at hnodup
  dsimp only at hnodup
  have hkept : ∀ part, (∀ e ∈ part, e ∈ front ++ back) → replaced key new part = part := by
    intro part hpart
    conv_rhs => rw [← List.map_id part]
    apply List.map_congr_left
    intro e he
    rw [if_neg, id]
    rintro rfl
    apply hnodup.1 (List.mem_map_of_mem (hpart e he))
  rw [entries_put, if_pos (exists_find?_iff.mp ⟨value, h⟩), hentries, replaced, List.map_append,
    List.map_cons, if_pos rfl, ← replaced, ← replaced,
    hkept front fun e he => List.mem_append_left back he,
    hkept back fun e he => List.mem_append_right front he]

/-- A new name takes the last place. -/
theorem entries_put_of_find?_eq_none (h : c.find? key = none) :
  (c.put key value).entries = c.entries ++ [(key, value)]
  := by
  rw [entries_put, if_neg (find?_eq_none_iff.mp h)]

/-- Of two values that are put under one key the later stays. -/
theorem put_put (old new : α) :
  (c.put key old).put key new = c.put key new
  := by
  apply ext
  have hkey : key ∈ (c.put key old).keys := mem_keys_put.mpr (.inr rfl)
  rw [entries_put, if_pos hkey, entries_put, entries_put]
  split_ifs with hold
  · rw [replaced, replaced, replaced, List.map_map]
    apply List.map_congr_left
    intro e _
    simp only [Function.comp_apply]
    split_ifs with h
    · rfl
    · contradiction
    · rfl
  · have hkept : replaced key new c.entries = c.entries := by
      conv_rhs => rw [← List.map_id c.entries]
      apply List.map_congr_left
      intro e he
      rw [if_neg, id]
      rintro rfl
      exact hold (List.mem_map_of_mem he)
    rw [replaced, List.map_append, ← replaced, hkept, List.map_singleton, if_pos rfl]

/-- Two changes under one key are one change. -/
theorem adjust_adjust (default : α) (first second : α → α) :
  (c.adjust key default first).adjust key default second
    = c.adjust key default fun a => second (first a)
  := by
  rw [adjust, find?_adjust, if_pos rfl, Option.getD_some, adjust, put_put, adjust]

/-- The size grows by one exactly when the name is new. -/
theorem size_put :
  (c.put key value).size = if key ∈ c.keys then c.size else c.size + 1
  := by
  rw [size, entries_put]
  split_ifs
  · rw [replaced, List.length_map, size]
  · rw [List.length_append, List.length_singleton, size]

/-- Entries under distinct keys are the entries of their catalog. -/
theorem entries_ofList {entries : List (String × α)} (h : (entries.map Prod.fst).Nodup) :
  (ofList entries).entries = entries
  := by
  have hfold : ∀ c : Catalog α, (∀ e ∈ entries, e.1 ∉ c.keys) →
      (entries.foldl (fun c e => c.put e.1 e.2) c).entries = c.entries ++ entries := by
    induction entries with
    | nil =>
      intro c _
      rw [List.foldl_nil, List.append_nil]
    | cons e rest ih =>
      intro c hc
      obtain ⟨he, hrest⟩ := List.forall_mem_cons.mp hc
      obtain ⟨hfresh, hnodup⟩ := List.nodup_cons.mp h
      rw [List.foldl_cons, ih hnodup, entries_put_of_find?_eq_none (find?_eq_none_iff.mpr he),
        List.append_assoc, List.singleton_append]
      intro f hf hmem
      rcases mem_keys_put.mp hmem with hmem | heq
      · exact hrest f hf hmem
      · apply hfresh
        rw [← heq]
        apply List.mem_map_of_mem hf
  rw [ofList, hfold, entries_empty, List.nil_append]
  intro e _
  apply List.not_mem_nil

end DiagramLayout.Catalog
