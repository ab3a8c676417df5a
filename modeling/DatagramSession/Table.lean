/-!
# Tables

A table maps keys to values and remembers the order in which its keys came in.  A key occurs once;
giving a new value to a key that is there keeps its place.  Each operation is described by what
`find?` sees of it.
-/
namespace DatagramSession

/-- The entries with `key` bound to `value`, in its old place or at the end. -/
def insertEntry {κ ν : Type} [DecidableEq κ] (key : κ) (value : ν) : List (κ × ν) → List (κ × ν)
  | [] => [(key, value)]
  | (k, v) :: rest => if k = key then (key, value) :: rest else (k, v) :: insertEntry key value rest

theorem mem_keys_insertEntry {κ ν : Type} [DecidableEq κ] {key k : κ} {value : ν}
    {entries : List (κ × ν)} :
    k ∈ (insertEntry key value entries).map Prod.fst ↔ k = key ∨ k ∈ entries.map Prod.fst := by
  induction entries with
  | nil => simp [insertEntry]
  | cons entry rest ih =>
    obtain ⟨k', v'⟩ := entry
    by_cases h : k' = key
    · simp [insertEntry, h]
    · simp only [insertEntry, h, if_false, List.map_cons, List.mem_cons, ih]
      grind

theorem nodup_insertEntry {κ ν : Type} [DecidableEq κ] {key : κ} {value : ν}
    {entries : List (κ × ν)} (unique : (entries.map Prod.fst).Nodup) :
    ((insertEntry key value entries).map Prod.fst).Nodup := by
  induction entries with
  | nil => simp [insertEntry]
  | cons entry rest ih =>
    obtain ⟨k', v'⟩ := entry
    simp only [List.map_cons, List.nodup_cons] at unique
    by_cases h : k' = key
    · subst h
      simpa [insertEntry] using unique
    · rw [insertEntry, if_neg h, List.map_cons, List.nodup_cons, mem_keys_insertEntry]
      exact ⟨fun found => found.elim h unique.1, ih unique.2⟩

theorem insertEntry_of_find? {κ ν : Type} [DecidableEq κ] {key : κ} {value : ν}
    {entries : List (κ × ν)}
    (found : (entries.find? fun entry => entry.1 = key).map Prod.snd = some value) :
    insertEntry key value entries = entries := by
  induction entries with
  | nil => cases found
  | cons entry rest ih =>
    by_cases same : entry.1 = key
    · have here : entry.2 = value := by simpa [same] using found
      simp [insertEntry, same, ← here, Prod.ext_iff]
    · have later := ih (by simpa [same] using found)
      simp [insertEntry, same, later]

/-- A map with its keys in the order of their arrival. -/
@[ext] structure Table (κ ν : Type) where
  entries : List (κ × ν) := []
  unique : (entries.map Prod.fst).Nodup := by exact List.nodup_nil
  deriving DecidableEq

namespace Table

variable {κ ν : Type}

def keys (t : Table κ ν) : List κ :=
  t.entries.map Prod.fst

def values (t : Table κ ν) : List ν :=
  t.entries.map Prod.snd

def size (t : Table κ ν) : Nat :=
  t.entries.length

variable [DecidableEq κ]

def find? (t : Table κ ν) (key : κ) : Option ν :=
  (t.entries.find? fun entry => entry.1 = key).map Prod.snd

def contains (t : Table κ ν) (key : κ) : Bool :=
  (t.find? key).isSome

/-- Binds a key, in the place that it already has or at the end. -/
def insert (t : Table κ ν) (key : κ) (value : ν) : Table κ ν where
  entries := insertEntry key value t.entries
  unique := nodup_insertEntry t.unique

def erase (t : Table κ ν) (key : κ) : Table κ ν where
  entries := t.entries.filter fun entry => entry.1 ≠ key
  unique := (List.filter_sublist.map Prod.fst).nodup t.unique

/-- Binds a key or takes it out. -/
def set (t : Table κ ν) (key : κ) : Option ν → Table κ ν
  | some value => t.insert key value
  | none => t.erase key

/-- Changes the value of a key, if it has one. -/
def modify (t : Table κ ν) (key : κ) (f : ν → ν) : Table κ ν :=
  t.set key ((t.find? key).map f)

theorem mem_keys_iff {t : Table κ ν} {key : κ} : key ∈ t.keys ↔ (t.find? key).isSome = true := by
  simp [keys, find?]

@[simp] theorem find?_empty (key : κ) : ({} : Table κ ν).find? key = none := rfl

theorem find?_insert (t : Table κ ν) (key k : κ) (value : ν) :
    (t.insert key value).find? k = if key = k then some value else t.find? k := by
  simp only [find?, insert]
  generalize t.entries = entries
  induction entries with
  | nil => by_cases h : key = k <;> simp [insertEntry, h]
  | cons entry rest ih =>
    obtain ⟨k', v'⟩ := entry
    by_cases h : k' = key
    · by_cases hk : key = k <;> simp_all [insertEntry]
    · by_cases hk : k' = k
      · simp_all [insertEntry]
        exact fun same => absurd same.symm h
      · simpa [insertEntry, h, hk] using ih

theorem find?_erase (t : Table κ ν) (key k : κ) :
    (t.erase key).find? k = if key = k then none else t.find? k := by
  simp only [find?, erase]
  generalize t.entries = entries
  induction entries with
  | nil => simp
  | cons entry rest ih =>
    obtain ⟨k', v'⟩ := entry
    by_cases h : k' = key <;> by_cases hk : k' = k <;> simp_all
    intro h'
    exact absurd h'.symm h

theorem find?_of_find?_erase {t : Table κ ν} {key k : κ} {value : ν}
    (h : (t.erase key).find? k = some value) :
    t.find? k = some value := by
  rw [find?_erase] at h
  split at h
  · cases h
  · exact h

theorem find?_set (t : Table κ ν) (key k : κ) (value : Option ν) :
    (t.set key value).find? k = if key = k then value else t.find? k := by
  cases value with
  | none => exact t.find?_erase key k
  | some value => exact t.find?_insert key k value

/-- Binding a key to what it is bound to, if to anything, changes nothing. -/
theorem set_find? (t : Table κ ν) (key : κ) : t.set key (t.find? key) = t := by
  cases found : t.find? key with
  | some value =>
    ext1
    exact insertEntry_of_find? found
  | none =>
    ext1
    have absent : ∀ entry ∈ t.entries, entry.1 ≠ key := by simpa [find?] using found
    exact List.filter_eq_self.2 fun entry mem => by simpa using absent entry mem

theorem find?_modify (t : Table κ ν) (key k : κ) (f : ν → ν) :
    (t.modify key f).find? k = if key = k then (t.find? k).map f else t.find? k := by
  rw [modify, find?_set]
  by_cases h : key = k <;> simp [h]

theorem insertEntry_insertEntry (key : κ) (value value' : ν) (entries : List (κ × ν)) :
    insertEntry key value' (insertEntry key value entries) = insertEntry key value' entries := by
  induction entries with
  | nil => simp [insertEntry]
  | cons entry rest ih =>
    by_cases same : entry.1 = key
    · simp [insertEntry, same]
    · simp [insertEntry, same, ih]

theorem insert_insert (t : Table κ ν) (key : κ) (value value' : ν) :
    (t.insert key value).insert key value' = t.insert key value' := by
  ext1
  exact insertEntry_insertEntry key value value' t.entries

theorem modify_eq_insert {t : Table κ ν} {key : κ} {value : ν} (found : t.find? key = some value)
    (f : ν → ν) :
    t.modify key f = t.insert key (f value) := by
  rw [modify, found]
  rfl

theorem find?_foldl_insert (t : Table κ ν) (keys : List κ) (k : κ) (value : ν) :
    (keys.foldl (fun t key => t.insert key value) t).find? k = if k ∈ keys then some value else
      t.find? k := by
  induction keys generalizing t with
  | nil => simp
  | cons key rest ih =>
    rw [List.foldl_cons, ih, find?_insert]
    by_cases later : k ∈ rest <;> by_cases h : key = k <;> simp [later, h]
    exact fun same => absurd same.symm h

theorem find?_foldl_erase (t : Table κ ν) (keys : List κ) (k : κ) :
    (keys.foldl erase t).find? k = if k ∈ keys then none else t.find? k := by
  induction keys generalizing t with
  | nil => simp
  | cons key rest ih =>
    rw [List.foldl_cons, ih, find?_erase]
    by_cases later : k ∈ rest <;> by_cases h : key = k <;> simp [later, h]
    exact fun same => absurd same.symm h

theorem mem_entries_iff {t : Table κ ν} {key : κ} {value : ν} :
    (key, value) ∈ t.entries ↔ t.find? key = some value := by
  obtain ⟨entries, unique⟩ := t
  simp only [find?]
  induction entries with
  | nil => simp
  | cons entry rest ih =>
    obtain ⟨k, v⟩ := entry
    obtain ⟨new, unique⟩ := List.nodup_cons.1 unique
    by_cases same : k = key
    · subst same
      have absent : (k, value) ∉ rest := fun found => new (List.mem_map.2 ⟨_, found, rfl⟩)
      simp [absent, eq_comm]
    · have other : (key, value) ≠ (k, v) := fun h => same (congrArg Prod.fst h).symm
      simpa [same, other] using ih unique

theorem mem_values_iff {t : Table κ ν} {value : ν} :
    value ∈ t.values ↔ ∃ key, t.find? key = some value := by
  simp [values, ← mem_entries_iff]

theorem length_insertEntry_le (key : κ) (value : ν) (entries : List (κ × ν)) :
    (insertEntry key value entries).length ≤ entries.length + 1 := by
  induction entries with
  | nil => exact Nat.le_refl _
  | cons entry rest ih =>
    simp only [insertEntry]
    split
    · exact Nat.le_succ _
    · exact Nat.succ_le_succ ih

theorem size_insert_le (t : Table κ ν) (key : κ) (value : ν) :
    (t.insert key value).size ≤ t.size + 1 :=
  length_insertEntry_le key value t.entries

theorem size_erase_le (t : Table κ ν) (key : κ) : (t.erase key).size ≤ t.size :=
  List.length_filter_le _ _

/-- Tables with the same keys are of one size. -/
theorem size_eq {ν' : Type} {t : Table κ ν} {t' : Table κ ν'}
    (same : ∀ key, (t.find? key).isSome = (t'.find? key).isSome) : t.size = t'.size := by
  have perm : t.keys.Perm t'.keys := by
    refine (List.perm_ext_iff_of_nodup t.unique t'.unique).2 fun key => ?_
    change key ∈ t.keys ↔ key ∈ t'.keys
    rw [mem_keys_iff, mem_keys_iff, same]
  simpa [keys, size] using perm.length_eq

end Table
end DatagramSession
