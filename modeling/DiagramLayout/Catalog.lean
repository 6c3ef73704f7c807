/-!
# Catalogs

A catalog holds one value under each of its keys, in the order in which the keys were first put
in. Putting a value under a key that is there replaces the value and leaves the order as it is.
-/

namespace DiagramLayout

/-- Values under distinct keys. -/
structure Catalog (α : Type) where
  entries : List (String × α)
  nodup : (entries.map Prod.fst).Nodup

namespace Catalog

variable {α : Type}

/-- The catalog without entries. -/
def empty : Catalog α :=
  ⟨[], List.nodup_nil⟩

instance : Inhabited (Catalog α) :=
  ⟨empty⟩

/-- The keys in order. -/
def keys (c : Catalog α) : List String :=
  c.entries.map Prod.fst

/-- The values in the order of their keys. -/
def values (c : Catalog α) : List α :=
  c.entries.map Prod.snd

/-- The number of entries. -/
def size (c : Catalog α) : Nat :=
  c.entries.length

/-- The value under a key. -/
def find? (c : Catalog α) (key : String) : Option α :=
  c.entries.lookup key

/-- Whether there is a value under the key. -/
def contains (c : Catalog α) (key : String) : Bool :=
  (c.find? key).isSome

/-- The entries with `value` in place of what stood under `key`. -/
def replaced (key : String) (value : α) (entries : List (String × α)) : List (String × α) :=
  entries.map fun e => if e.1 = key then (key, value) else e

/-- Replacing a value keeps the names and their order. -/
theorem map_fst_replaced (key : String) (value : α) (entries : List (String × α)) :
  (replaced key value entries).map Prod.fst = entries.map Prod.fst
  := by
  simp only [replaced, List.map_map]
  apply List.map_congr_left
  intro e _
  simp only [Function.comp]
  split <;> simp_all

/-- Names stay distinct when an entry with a new name is appended. -/
theorem nodup_concat {entries : List (String × α)} {key : String} (value : α)
    (distinct : (entries.map Prod.fst).Nodup) (fresh : key ∉ entries.map Prod.fst) :
  ((entries ++ [(key, value)]).map Prod.fst).Nodup
  := by
  simp only [List.map_append, List.map_cons, List.map_nil, List.nodup_append, List.nodup_cons,
    List.not_mem_nil, List.nodup_nil]
  exact ⟨distinct, by simp, fun a ha b hb h => fresh (by simp_all)⟩

/-- Puts a value under a key: in place of the old value, or behind all entries. -/
def put (c : Catalog α) (key : String) (value : α) : Catalog α :=
  if h : key ∈ c.entries.map Prod.fst then
    ⟨replaced key value c.entries, by rw [map_fst_replaced]; exact c.nodup⟩
  else ⟨c.entries ++ [(key, value)], nodup_concat value c.nodup h⟩

/-- Puts `update v` under a key that holds `v`, and `update default` under a new key. -/
def adjust (c : Catalog α) (key : String) (default : α) (update : α → α) : Catalog α :=
  c.put key (update ((c.find? key).getD default))

/-- The catalog of a list of entries, a later entry replacing an earlier one of its key. -/
def ofList (entries : List (String × α)) : Catalog α :=
  entries.foldl (fun c e => c.put e.1 e.2) empty

/-- Catalogs with the same entries in the same order are equal. -/
@[ext]
theorem ext {c d : Catalog α} (h : c.entries = d.entries) :
  c = d
  := by
  cases c
  cases d
  cases h
  rfl

@[simp]
theorem entries_empty :
  (empty : Catalog α).entries = []
  := rfl

theorem entries_put (c : Catalog α) (key : String) (value : α) :
  (c.put key value).entries
    = if key ∈ c.keys then replaced key value c.entries else c.entries ++ [(key, value)]
  := by
  rw [put, keys]
  split <;> rfl

theorem keys_put (c : Catalog α) (key : String) (value : α) :
  (c.put key value).keys = if key ∈ c.keys then c.keys else c.keys ++ [key]
  := by
  rw [keys]
  rw [entries_put]
  rw [keys]
  split
  · rw [map_fst_replaced]
  · simp

end Catalog

end DiagramLayout
