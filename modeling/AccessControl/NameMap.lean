/-!
# Finite maps keyed by names

A map is its list of entries in ascending order of names, so that two maps with the same
look-ups are the same value and every listing comes out in one order. Names are ordered by
code points, which is also the order of their encoded bytes.
-/

namespace AccessControl

namespace NameMap

/-- Names are strictly ascending, hence distinct. -/
def Ascending {α : Type} (entries : List (String × α)) : Prop :=
  entries.Pairwise (fun left right => left.1 < right.1)

instance {α : Type} (entries : List (String × α)) : Decidable (Ascending entries) :=
  inferInstanceAs (Decidable (entries.Pairwise (fun left right => left.1 < right.1)))

/-- The value of the first entry with the name. -/
def find {α : Type} (name : String) : List (String × α) → Option α
  | [] => none
  | (other, value) :: rest => if name = other then some value else find name rest

/-- Puts an entry at its place in the order; an entry of the same name is replaced. -/
def place {α : Type} (name : String) (value : α) : List (String × α) → List (String × α)
  | [] => [(name, value)]
  | (other, old) :: rest =>
    if name = other then (name, value) :: rest
    else if name < other then (name, value) :: (other, old) :: rest
    else (other, old) :: place name value rest

/-- Placing adds no entry but the placed one. -/
theorem mem_place {α : Type} {name : String} {value : α} {entries : List (String × α)}
    {entry : String × α} (h : entry ∈ place name value entries) :
    entry = (name, value) ∨ entry ∈ entries := by
  induction entries with
  | nil => simpa [place] using h
  | cons head rest ih =>
    rcases head with ⟨other, old⟩
    simp only [place] at h
    split at h
    · rcases List.mem_cons.mp h with h | h
      · exact Or.inl h
      · exact Or.inr (List.mem_cons_of_mem _ h)
    · split at h
      · rcases List.mem_cons.mp h with h | h
        · exact Or.inl h
        · exact Or.inr h
      · rcases List.mem_cons.mp h with h | h
        · exact Or.inr (h ▸ List.mem_cons_self)
        · rcases ih h with h | h
          · exact Or.inl h
          · exact Or.inr (List.mem_cons_of_mem _ h)

/-- Placing keeps the order of the names. -/
theorem ascending_place {α : Type} (name : String) (value : α) {entries : List (String × α)}
    (h : Ascending entries) : Ascending (place name value entries) := by
  induction entries with
  | nil => simp [place, Ascending]
  | cons head rest ih =>
    rcases head with ⟨other, old⟩
    obtain ⟨hhead, hrest⟩ := List.pairwise_cons.mp h
    simp only [place]
    split
    · rename_i heq
      subst heq
      exact List.pairwise_cons.mpr ⟨hhead, hrest⟩
    · split
      · rename_i hlt
        refine List.pairwise_cons.mpr ⟨fun entry hmem => ?_, h⟩
        rcases List.mem_cons.mp hmem with he | he
        · exact he ▸ hlt
        · exact String.lt_trans hlt (hhead entry he)
      · rename_i hne hlt
        refine List.pairwise_cons.mpr ⟨fun entry hmem => ?_, ih hrest⟩
        rcases mem_place hmem with he | he
        · exact he ▸ Std.lt_of_le_of_ne (String.not_lt.mp hlt) (Ne.symm hne)
        · exact hhead entry he

/-- The placed value is found under its name, and all others as before. -/
theorem find_place {α : Type} (name other : String) (value : α) (entries : List (String × α)) :
    find other (place name value entries) =
      if other = name then some value else find other entries := by
  induction entries with
  | nil => simp [place, find]
  | cons head rest ih =>
    rcases head with ⟨first, old⟩
    by_cases hfirst : name = first
    · subst hfirst
      by_cases h : other = name <;> simp [place, find, h]
    · by_cases hlt : name < first
      · by_cases h : other = name <;> simp [place, find, hfirst, hlt, h]
      · by_cases h : other = name
        · subst h
          simp [place, find, hfirst, hlt, ih]
        · simp [place, find, hfirst, hlt, h, ih]

end NameMap

/-- A finite map from names to values, kept in ascending order of names. -/
structure NameMap (α : Type) where
  /-- The entries, in ascending order. -/
  entries : List (String × α)
  /-- No name occurs twice and none is out of order. -/
  ascending : NameMap.Ascending entries

namespace NameMap

variable {α β : Type}

/-- The map without entries. -/
def empty : NameMap α := ⟨[], List.Pairwise.nil⟩

instance : Inhabited (NameMap α) := ⟨empty⟩

instance : EmptyCollection (NameMap α) := ⟨empty⟩

/-- Maps with the same entries are equal. -/
theorem eq_of_entries {left right : NameMap α} (h : left.entries = right.entries) :
    left = right := by
  cases left; cases right; cases h; rfl

instance [DecidableEq α] : DecidableEq (NameMap α) := fun left right =>
  if h : left.entries = right.entries then isTrue (eq_of_entries h)
  else isFalse (fun heq => h (heq ▸ rfl))

/-- The value under a name. -/
def get? (map : NameMap α) (name : String) : Option α := find name map.entries

/-- Whether a name has an entry. -/
def contains (map : NameMap α) (name : String) : Bool := (map.get? name).isSome

/-- The number of entries. -/
def size (map : NameMap α) : Nat := map.entries.length

/-- Whether there is no entry. -/
def isEmpty (map : NameMap α) : Bool := map.entries.isEmpty

/-- The names, ascending. -/
def names (map : NameMap α) : List String := map.entries.map (·.1)

/-- The values, in ascending order of their names. -/
def values (map : NameMap α) : List α := map.entries.map (·.2)

/-- Binds a name, replacing what it was bound to. -/
def insert (map : NameMap α) (name : String) (value : α) : NameMap α :=
  ⟨place name value map.entries, ascending_place name value map.ascending⟩

/-- Keeps the entries whose name passes the test. -/
def restrict (map : NameMap α) (keep : String → Bool) : NameMap α :=
  ⟨map.entries.filter (fun entry => keep entry.1), map.ascending.filter _⟩

/-- Removes the entry of a name, if there is one. -/
def erase (map : NameMap α) (name : String) : NameMap α := map.restrict (fun other => other != name)

/-- Binds every listed name in turn: of two entries with one name the later counts. -/
def insertAll (map : NameMap α) (entries : List (String × α)) : NameMap α :=
  entries.foldl (fun map entry => map.insert entry.1 entry.2) map

/-- The map of a list of entries: of two entries with one name the later counts. -/
def ofList (entries : List (String × α)) : NameMap α := empty.insertAll entries

/-- Both maps together; where both bind a name, the right one counts. -/
def union (left right : NameMap α) : NameMap α := left.insertAll right.entries

/-- The values replaced by a function of name and value. -/
def mapEntries (f : String → α → β) (map : NameMap α) : NameMap β :=
  ⟨map.entries.map (fun entry => (entry.1, f entry.1 entry.2)),
    List.pairwise_map.mpr (map.ascending.imp (fun h => h))⟩

/-- The values replaced by a function of the value. -/
def mapValues (f : α → β) (map : NameMap α) : NameMap β := map.mapEntries (fun _ value => f value)

/-- Nothing is found in the empty map. -/
@[simp] theorem get?_empty (name : String) : (empty : NameMap α).get? name = none := rfl

/-- The inserted value is found under its name, and all others as before. -/
theorem get?_insert (map : NameMap α) (name other : String) (value : α) :
    (map.insert name value).get? other = if other = name then some value else map.get? other :=
  find_place name other value map.entries

/-- Among the entries whose names pass a test, a name is found just where it passes. -/
theorem find_filter (keep : String → Bool) (name : String) (entries : List (String × α)) :
    find name (entries.filter (fun entry => keep entry.1)) =
      if keep name then find name entries else none := by
  induction entries with
  | nil => simp only [List.filter_nil, find, ite_self]
  | cons head rest ih =>
    rcases head with ⟨other, value⟩
    by_cases heq : name = other
    · subst heq
      by_cases hkeep : keep name <;> simp [hkeep, find, ih]
    · by_cases hother : keep other <;> simp [hother, find, heq, ih]

/-- A restricted map has the entries of the names that pass the test. -/
theorem get?_restrict (keep : String → Bool) (map : NameMap α) (name : String) :
    (map.restrict keep).get? name = if keep name then map.get? name else none :=
  find_filter keep name map.entries

/-- What is found among replaced values is the replacement of what was found. -/
theorem find_map (f : α → β) (name : String) (entries : List (String × α)) :
    find name (entries.map (fun entry => (entry.1, f entry.2))) = (find name entries).map f := by
  induction entries with
  | nil => rfl
  | cons head rest ih =>
    rcases head with ⟨other, value⟩
    rw [List.map_cons, find, find]
    split
    · rfl
    · exact ih

/-- A name of a map with replaced values has the replacement of its value. -/
@[simp] theorem get?_mapValues (f : α → β) (map : NameMap α) (name : String) :
    (map.mapValues f).get? name = (map.get? name).map f := find_map f name map.entries

/-- A name has a value just where an entry binds it to the value. -/
theorem get?_eq_some_iff {map : NameMap α} {name : String} {value : α} :
    map.get? name = some value ↔ (name, value) ∈ map.entries := by
  obtain ⟨entries, ascending⟩ := map
  rw [get?]
  induction entries with
  | nil => simp [find]
  | cons head rest ih =>
    obtain ⟨other, first⟩ := head
    obtain ⟨hhead, hrest⟩ := List.pairwise_cons.mp ascending
    rw [find, List.mem_cons, Prod.mk.injEq]
    split
    case isTrue heq =>
      subst heq
      have hnot : (name, value) ∉ rest := fun hmem => String.lt_irrefl name (hhead _ hmem)
      simp only [true_and, hnot, or_false, Option.some.injEq]
      exact eq_comm
    case isFalse hne => simp only [hne, false_and, false_or, ih hrest]

/-- The value of a name is among the values. -/
theorem mem_values_of_get? {map : NameMap α} {name : String} {value : α}
    (h : map.get? name = some value) : value ∈ map.values :=
  List.mem_map.mpr ⟨(name, value), get?_eq_some_iff.mp h, rfl⟩

/-- A name of a map with replaced values is a name of the map. -/
@[simp] theorem contains_mapValues (f : α → β) (map : NameMap α) (name : String) :
    (map.mapValues f).contains name = map.contains name := by
  rw [contains, get?_mapValues, Option.isSome_map, contains]

/-- The values of a map with replaced values are the replacements. -/
theorem values_mapValues (f : α → β) (map : NameMap α) :
    (map.mapValues f).values = map.values.map f := by
  rw [values, values, mapValues, mapEntries, List.map_map, List.map_map]
  rfl

/-- Replacing values twice is replacing them once. -/
theorem mapValues_mapValues {γ : Type} (g : β → γ) (f : α → β) (map : NameMap α) :
    (map.mapValues f).mapValues g = map.mapValues (fun value => g (f value)) :=
  eq_of_entries List.map_map

/-- Values are replaced alike by functions that agree on them. -/
theorem mapValues_congr {f g : α → β} {map : NameMap α}
    (h : ∀ value ∈ map.values, f value = g value) :
    map.mapValues f = map.mapValues g :=
  eq_of_entries (List.map_congr_left (fun entry hmem =>
    congrArg (Prod.mk entry.1) (h entry.2 (List.mem_map_of_mem hmem))))

/-- Values that are replaced by themselves stay. -/
theorem mapValues_id (map : NameMap α) : map.mapValues id = map :=
  eq_of_entries (List.map_id map.entries)

/-- The names of a map are in ascending order. -/
theorem pairwise_names (map : NameMap α) : map.names.Pairwise (· < ·) :=
  List.pairwise_map.mpr map.ascending

/-- The names of a map are distinct. -/
theorem nodup_names (map : NameMap α) : map.names.Nodup := by
  refine List.pairwise_map.mpr (map.ascending.imp (fun {first second} hlt heq => ?_))
  exact String.lt_irrefl second.1 (heq ▸ hlt)

/-- Maps with the same look-ups are equal. -/
theorem ext_get? {left right : NameMap α} (h : ∀ name, left.get? name = right.get? name) :
    left = right := by
  have hmem : ∀ entry, entry ∈ left.entries ↔ entry ∈ right.entries := by
    rintro ⟨name, value⟩
    rw [← get?_eq_some_iff, ← get?_eq_some_iff, h]
  have hnodup : ∀ map : NameMap α, map.entries.Nodup := fun map =>
    (List.pairwise_map.mp (nodup_names map)).imp (fun hne heq => hne (congrArg Prod.fst heq))
  have hperm := (List.perm_ext_iff_of_nodup (hnodup left) (hnodup right)).mpr hmem
  refine eq_of_entries (hperm.eq_of_pairwise ?_ left.ascending right.ascending)
  exact fun first second _ _ hlt hgt => absurd (String.lt_trans hlt hgt) (String.lt_irrefl _)

/-- In two lists one behind the other, the first one counts. -/
theorem find_append (name : String) (front back : List (String × α)) :
    find name (front ++ back) = (find name front).or (find name back) := by
  induction front with
  | nil => rfl
  | cons head rest ih =>
    obtain ⟨other, value⟩ := head
    rw [List.cons_append, find, find]
    split
    · rfl
    · exact ih

/-- A name is not found just where no entry has it. -/
theorem find_eq_none_iff {name : String} {entries : List (String × α)} :
    find name entries = none ↔ ∀ entry ∈ entries, name ≠ entry.1 := by
  induction entries with
  | nil => exact ⟨fun _ => List.forall_mem_nil _, fun _ => rfl⟩
  | cons head rest ih =>
    obtain ⟨other, value⟩ := head
    rw [find, List.forall_mem_cons, ← ih]
    split
    case isTrue heq => exact ⟨nofun, fun h => absurd heq h.1⟩
    case isFalse hne => exact ⟨fun h => ⟨hne, h⟩, And.right⟩

/-- Where no name occurs twice, entries are found in either direction. -/
theorem find_reverse {entries : List (String × α)} (h : Ascending entries) (name : String) :
    find name entries.reverse = find name entries := by
  induction entries with
  | nil => rfl
  | cons head rest ih =>
    obtain ⟨other, value⟩ := head
    obtain ⟨hhead, hrest⟩ := List.pairwise_cons.mp h
    rw [List.reverse_cons, find_append, ih hrest, find, find, find]
    split
    case isTrue heq =>
      subst heq
      rw [find_eq_none_iff.mpr (fun entry hmem heq => String.lt_irrefl _ (heq ▸ hhead entry hmem))]
      rfl
    case isFalse => rw [Option.or_none]

/-- Of listed entries the last with the name counts, and what was bound before if there is none. -/
theorem get?_insertAll (map : NameMap α) (entries : List (String × α)) (name : String) :
    (map.insertAll entries).get? name = (find name entries.reverse).or (map.get? name) := by
  induction entries generalizing map with
  | nil => rfl
  | cons head rest ih =>
    have hstep : (map.insertAll (head :: rest)).get? name =
        ((map.insert head.1 head.2).insertAll rest).get? name := rfl
    rw [hstep, ih, get?_insert, List.reverse_cons, find_append, find, find, Option.or_assoc]
    split <;> rfl

/-- In a union the right map counts. -/
theorem get?_union (left right : NameMap α) (name : String) :
    (left.union right).get? name = (right.get? name).or (left.get? name) := by
  rw [union, get?_insertAll, find_reverse right.ascending, get?, get?]

/-- The map of ascending entries has each of them under its name. -/
theorem get?_ofList_of_ascending {entries : List (String × α)} (h : Ascending entries)
    (name : String) : (ofList entries).get? name = find name entries := by
  rw [ofList, get?_insertAll, find_reverse h, get?_empty, Option.or_none]

/-- A map is the map of its entries. -/
theorem ofList_entries (map : NameMap α) : ofList map.entries = map :=
  ext_get? (get?_ofList_of_ascending map.ascending)

/-- The names of a map are those with a value. -/
theorem mem_names_iff {map : NameMap α} {name : String} :
    name ∈ map.names ↔ map.get? name ≠ none := by
  rw [get?, ne_eq, find_eq_none_iff, names, List.mem_map]
  simp only [Classical.not_forall, Classical.not_not, exists_prop, eq_comm]

/-- The names of the map of a list are those of its entries. -/
theorem mem_names_ofList {entries : List (String × α)} {name : String} :
    name ∈ (ofList entries).names ↔ ∃ entry ∈ entries, entry.1 = name := by
  rw [mem_names_iff, ofList, get?_insertAll, get?_empty, Option.or_none, ne_eq, find_eq_none_iff]
  simp only [List.mem_reverse, Classical.not_forall, Classical.not_not, exists_prop, eq_comm]

/-- Where no name is listed twice, every entry is found. -/
theorem find_of_nodup {entries : List (String × α)} (h : (entries.map (·.1)).Nodup)
    {name : String} {value : α} (hmem : (name, value) ∈ entries) :
    find name entries = some value := by
  induction entries with
  | nil => exact absurd hmem List.not_mem_nil
  | cons head rest ih =>
    obtain ⟨other, first⟩ := head
    obtain ⟨hhead, hrest⟩ := List.nodup_cons.mp h
    rw [find]
    rcases List.mem_cons.mp hmem with heq | htail
    · cases heq
      exact if_pos rfl
    · have hne : name ≠ other := fun heq => hhead (heq ▸ List.mem_map.mpr ⟨_, htail, rfl⟩)
      rw [if_neg hne, ih hrest htail]

/-- Where no name is listed twice, the map of the list has every entry. -/
theorem get?_ofList_of_nodup {entries : List (String × α)} (h : (entries.map (·.1)).Nodup)
    {name : String} {value : α} (hmem : (name, value) ∈ entries) :
    (ofList entries).get? name = some value := by
  have hreverse : (entries.reverse.map (·.1)).Nodup := by
    rw [List.map_reverse]
    exact List.pairwise_reverse.mpr (h.imp Ne.symm)
  rw [ofList, get?_insertAll, find_of_nodup hreverse (List.mem_reverse.mpr hmem), Option.some_or]

/-- Where no name is listed twice, the map of the list has as many entries as the list. -/
theorem size_ofList_of_nodup {entries : List (String × α)} (h : (entries.map (·.1)).Nodup) :
    (ofList entries).size = entries.length := by
  have hperm : (ofList entries).names.Perm (entries.map (·.1)) := by
    refine (List.perm_ext_iff_of_nodup (nodup_names _) h).mpr (fun name => ?_)
    rw [mem_names_ofList, List.mem_map]
  have hlength := hperm.length_eq
  rwa [names, List.length_map, List.length_map] at hlength

end NameMap

end AccessControl
