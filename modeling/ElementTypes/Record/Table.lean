import ElementTypes.Record.Names

/-! # Tables of fields

A field with a title stands in its table twice: under its name, and under its title as an alias, an
entry whose title is its own key. Writing under a key that is in use keeps the position, and removal
closes the gap.
-/

namespace ElementTypes

abbrev Ref := Nat

structure Field where
  target : Ref
  offset : Size
  title : Option String
  deriving DecidableEq

structure Entry extends Field where
  key : String
  deriving DecidableEq

def Entry.isAlias (entry : Entry) : Bool := entry.title = some entry.key

structure Table where
  entries : List Entry
  distinct : (entries.map (·.key)).Nodup
  deriving DecidableEq

structure Rename where
  old : String
  new : String
  deriving DecidableEq

namespace Table

def empty : Table := ⟨[], .nil⟩

def keys (table : Table) : List String := table.entries.map (·.key)

def size (table : Table) : Nat := table.entries.length

def find? (table : Table) (key : String) : Option Entry :=
  table.entries.find? fun entry => entry.key = key

def contains (table : Table) (key : String) : Bool := key ∈ table.keys

def primary (table : Table) : List Entry := table.entries.filter fun entry => !entry.isAlias

/-- The first field that an alias belongs to: it has the alias for its title and shares its
target. -/
def ownerOf? (table : Table) (entry : Entry) : Option Entry :=
  table.primary.find? fun field => field.title = some entry.key && field.target = entry.target

def mapFields (table : Table) (change : Entry → Field) : Table where
  entries := table.entries.map fun entry => ⟨change entry, entry.key⟩
  distinct := by simpa [Function.comp_def] using table.distinct

def put (table : Table) (key : String) (field : Field) : Table :=
  if new : key ∈ table.keys then
    table.mapFields fun entry => if entry.key = key then field else entry.toField
  else
    { entries := table.entries ++ [⟨field, key⟩]
      distinct := by
        rw [List.map_append, List.nodup_append]
        refine ⟨table.distinct, by simp, fun a old b single same => new ?_⟩
        rw [List.mem_singleton.1 single] at same
        exact (show a = key from same) ▸ old }

def erase (table : Table) (key : String) : Table where
  entries := table.entries.filter fun entry => entry.key ≠ key
  distinct := table.distinct.sublist (List.filter_sublist.map _)

def retarget (table : Table) (key : String) (target : Ref) : Table :=
  table.mapFields fun entry =>
    if entry.key = key then { entry.toField with target } else entry.toField

/-! ## Keys and look-ups -/

theorem keys_mapFields (table : Table) (change : Entry → Field) :
    (table.mapFields change).keys = table.keys := by
  simp [keys, mapFields, Function.comp_def]

theorem keys_put (table : Table) (key : String) (field : Field) :
    (table.put key field).keys = if key ∈ table.keys then table.keys else table.keys ++ [key] := by
  by_cases used : key ∈ table.keys
  · rw [put, dif_pos used, keys_mapFields, if_pos used]
  · rw [put, dif_neg used, if_neg used]
    simp [keys]

theorem keys_erase (table : Table) (key : String) :
    (table.erase key).keys = table.keys.filter (· ≠ key) := by
  simp [keys, erase, List.filter_map, Function.comp_def]

theorem key_of_find? {table : Table} {key : String} {entry : Entry}
    (h : table.find? key = some entry) : entry.key = key := by
  simpa using List.find?_some h

theorem find?_eq_none {table : Table} {key : String} :
    table.find? key = none ↔ key ∉ table.keys := by
  simp [find?, keys]

theorem find?_mapFields (table : Table) (change : Entry → Field) (key : String) :
    (table.mapFields change).find? key =
      (table.find? key).map fun entry => ⟨change entry, entry.key⟩ := by
  rw [find?, mapFields, List.find?_map]
  rfl

theorem find?_put_self (table : Table) (key : String) (field : Field) :
    (table.put key field).find? key = some ⟨field, key⟩ := by
  by_cases used : key ∈ table.keys
  · rw [put, dif_pos used, find?_mapFields]
    obtain ⟨entry, found⟩ := Option.ne_none_iff_exists'.1 (mt find?_eq_none.1 (not_not_intro used))
    simp [found, key_of_find? found]
  · have absent := find?_eq_none.2 used
    rw [put, dif_neg used]
    simp only [find?] at absent ⊢
    simp [List.find?_append, absent]

theorem find?_put_of_ne (table : Table) {key other : String} (field : Field) (h : other ≠ key) :
    (table.put key field).find? other = table.find? other := by
  by_cases used : key ∈ table.keys
  · rw [put, dif_pos used, find?_mapFields]
    cases found : table.find? other with
    | none => rfl
    | some entry =>
      obtain rfl := key_of_find? found
      simp [h]
  · rw [put, dif_neg used]
    simp [find?, List.find?_append, Ne.symm h]

theorem find?_erase_self (table : Table) (key : String) : (table.erase key).find? key = none := by
  simp [find?_eq_none, keys_erase]

theorem find?_erase_of_ne (table : Table) {key other : String} (h : other ≠ key) :
    (table.erase key).find? other = table.find? other := by
  simp only [find?, erase, List.find?_filter]
  congr 1
  funext entry
  by_cases same : entry.key = other <;> simp [same, h]

/-! ## Renaming -/

/-- The new key of an entry: the first request for its old key decides. -/
def renamed (renames : List Rename) (key : String) : String :=
  match renames.find? fun r => r.old = key with
  | some r => r.new
  | none => key

def conflict? (table : Table) (renames : List Rename) : Option String :=
  go [] renames
where
  go (earlier : List String) : List Rename → Option String
    | [] => none
    | r :: rest =>
      if r.new ∈ earlier ∨ (table.contains r.new ∧ !renames.any fun other => other.old = r.new)
      then some r.new
      else go (r.new :: earlier) rest

/-- Moves several entries at once, each in its place, so that keys may be exchanged. The table is
emptied, and then filled again. -/
def rekeyMany (renames : List Rename) : Change Table Unit := do
  let table ← Change.read
  match table.conflict? renames with
  | some name => throw (.takenName name)
  | none =>
    Change.reserve table.size (.tableOutOfMemory .denied)
    Change.write .empty
    Change.write (table.entries.foldl
      (fun moved entry => moved.put (renamed renames entry.key) entry.toField) .empty)

def rekey (old new : String) : Change Table Bool := do
  if (← Change.read).contains old then
    rekeyMany [⟨old, new⟩]
    return true
  else return false

end Table

end ElementTypes
