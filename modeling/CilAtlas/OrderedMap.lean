/-!
# Maps in insertion order

A map that lists its keys in the order in which they were first inserted.
Inserting a key that is already there keeps its place and replaces its value.
-/

namespace CilAtlas

/-- Distinct keys with their values, in order of first insertion. -/
structure OrderedMap (κ : Type) (α : Type) where
  entries : List (κ × α)
  nodup : (entries.map (·.1)).Nodup

namespace OrderedMap

variable {κ α : Type} [DecidableEq κ]

/-- The map without keys. -/
def empty : OrderedMap κ α :=
  ⟨[], by simp⟩

instance : Inhabited (OrderedMap κ α) := ⟨empty⟩

/-- The keys in order. -/
def keys (m : OrderedMap κ α) : List κ :=
  m.entries.map (·.1)

/-- The values in the order of their keys. -/
def values (m : OrderedMap κ α) : List α :=
  m.entries.map (·.2)

/-- How many keys there are. -/
def size (m : OrderedMap κ α) : Nat :=
  m.entries.length

/-- The value in the first entry with the given key. -/
def lookup? (k : κ) : List (κ × α) → Option α
  | [] => none
  | entry :: rest => if entry.1 = k then some entry.2 else lookup? k rest

/-- The value of a key. -/
def get? (m : OrderedMap κ α) (k : κ) : Option α :=
  lookup? k m.entries

/-- Whether the key has a value. -/
def contains (m : OrderedMap κ α) (k : κ) : Bool :=
  (m.get? k).isSome

/-- Replaces the value of `k` where it stands, or appends an entry for it. -/
def put (k : κ) (a : α) : List (κ × α) → List (κ × α)
  | [] => [(k, a)]
  | entry :: rest => if entry.1 = k then (k, a) :: rest else entry :: put k a rest

/-- The keys after `put`. -/
theorem map_fst_put (k : κ) (a : α) (entries : List (κ × α)) :
    (put k a entries).map (·.1) =
      if k ∈ entries.map (·.1) then entries.map (·.1) else entries.map (·.1) ++ [k] := by
  induction entries with
  | nil => simp [put]
  | cons entry rest ih =>
    by_cases h : entry.1 = k
    · simp [put, h]
    · have h' : ¬ k = entry.1 := fun he => h he.symm
      simp only [put, h, if_false, List.map_cons, ih, List.mem_cons, h', false_or]
      split <;> simp

theorem nodup_put (k : κ) (a : α) {entries : List (κ × α)}
    (h : (entries.map (·.1)).Nodup) : ((put k a entries).map (·.1)).Nodup := by
  rw [map_fst_put]
  split
  · exact h
  · next habsent =>
    rw [List.nodup_append]
    refine ⟨h, by simp, ?_⟩
    intro x hx y hy
    simp only [List.mem_singleton] at hy
    subst hy
    exact fun he => habsent (he ▸ hx)

/-- Gives `k` the value `a`. -/
def insert (m : OrderedMap κ α) (k : κ) (a : α) : OrderedMap κ α :=
  ⟨put k a m.entries, nodup_put k a m.nodup⟩

/-- Inserts the entries one after the other. -/
def insertAll (m : OrderedMap κ α) (entries : List (κ × α)) : OrderedMap κ α :=
  entries.foldl (fun acc entry => acc.insert entry.1 entry.2) m

/-- The map with these entries; a later entry for a key wins, in the place of
the first. -/
def ofList (entries : List (κ × α)) : OrderedMap κ α :=
  empty.insertAll entries

theorem lookup?_put (k k' : κ) (a : α) (entries : List (κ × α)) :
    lookup? k' (put k a entries) = if k = k' then some a else lookup? k' entries := by
  induction entries with
  | nil => simp [put, lookup?]
  | cons entry rest ih =>
    by_cases h : entry.1 = k <;> by_cases h' : entry.1 = k' <;>
      by_cases hk : k = k' <;> simp_all [put, lookup?]

theorem get?_insert (m : OrderedMap κ α) (k k' : κ) (a : α) :
    (m.insert k a).get? k' = if k = k' then some a else m.get? k' :=
  lookup?_put k k' a m.entries

theorem keys_insert (m : OrderedMap κ α) (k : κ) (a : α) :
    (m.insert k a).keys = if k ∈ m.keys then m.keys else m.keys ++ [k] :=
  map_fst_put k a m.entries

end OrderedMap
end CilAtlas
