import JackScopes.Session

/-!
# The index of names

Each category keeps, beside its entries, an index from names to positions. The
index is right when it leads from every name to the first entry that bears it.
All operations on a table keep it right, so that looking a name up answers what
a scan of the entries would.
-/

namespace JackScopes

/-- The entries of a category stand at their own indices, and the index of names
agrees with a scan. -/
structure Category.Indexed (kind : Kind) (category : Category) : Prop where
  kind_index {i : Nat} {entry : Entry} :
    category.entries.toList[i]? = some entry → entry.kind = kind ∧ entry.index = i
  first_eq (name : String) :
    category.first[name]? = category.entries.toList.findIdx? (·.name = name)

-- ---------------------------------------------------------------------------
-- One category
-- ---------------------------------------------------------------------------

namespace Category

theorem Indexed.empty (kind : Kind) : Indexed kind {} where
  kind_index h := by simp at h
  first_eq name := by simp

theorem getElem?_first_add (category : Category) (kind : Kind) (name type other : String) :
    (category.add kind name type).first[other]? =
      category.first[other]?.or (if name = other then some category.size else none) := by
  simp only [add, Std.TreeMap.getElem?_insertIfNew, Std.LawfulEqCmp.compare_eq_iff_eq]
  by_cases hn : name = other
  · subst hn
    cases h : category.first[name]? <;> simp [Std.TreeMap.mem_iff_isSome_getElem?, h]
  · simp [hn]

variable {kind : Kind} {category : Category}

theorem Indexed.add (h : category.Indexed kind) (name type : String) :
    (category.add kind name type).Indexed kind where
  kind_index {i entry} hi := by
    rw [entries_add, Array.toList_push] at hi
    rcases Nat.lt_trichotomy i category.size with hlt | rfl | hgt
    · rw [List.getElem?_append_left (by simpa [size] using hlt)] at hi
      exact h.kind_index hi
    · simp only [size, Array.size, List.getElem?_concat_length, Option.some.injEq] at hi
      subst hi
      exact ⟨rfl, rfl⟩
    · rw [List.getElem?_eq_none (by simpa [size, Nat.succ_le_iff] using hgt)] at hi
      cases hi
  first_eq other := by
    rw [getElem?_first_add, h.first_eq, entries_add, Array.toList_push, List.findIdx?_append]
    by_cases hn : name = other <;> simp [hn, size]

theorem Indexed.find?_eq (h : category.Indexed kind) (name : String) :
    category.find? name = category.entries.toList.find? (·.name = name) := by
  rw [List.find?_eq_bind_findIdx?_getElem?, ← h.first_eq]
  simp [find?]

theorem Indexed.contains_eq (h : category.Indexed kind) (name : String) :
    category.contains name = category.entries.toList.any (·.name = name) := by
  rw [contains, Std.TreeMap.contains_eq_isSome_getElem?, h.first_eq, List.findIdx?_isSome]

theorem Indexed.mem_first_iff (h : category.Indexed kind) (name : String) :
    name ∈ category.first ↔ ∃ entry ∈ category.entries, entry.name = name := by
  change category.contains name = true ↔ _
  rw [h.contains_eq, List.any_eq_true]
  simp

theorem Indexed.first_eq_some_iff (h : category.Indexed kind) (name : String)
    (position : Nat) :
    category.first[name]? = some position ↔
      ∃ inside : position < category.entries.size, category.entries[position].name = name ∧
        ∀ earlier, ∀ before : earlier < position, category.entries[earlier].name ≠ name := by
  rw [h.first_eq, List.findIdx?_eq_some_iff_getElem]
  simp

/-- Reading the entries at the position kept for a name never goes past their end. -/
theorem Indexed.find?_of_first (h : category.Indexed kind) {name : String} {position : Nat}
    (hfirst : category.first[name]? = some position) :
    ∃ inside : position < category.entries.size,
      category.find? name = some category.entries[position] := by
  obtain ⟨inside, -⟩ := (h.first_eq_some_iff name position).mp hfirst
  exact ⟨inside, by simp [find?, hfirst, inside]⟩

theorem Indexed.kind_index_getElem (h : category.Indexed kind) (position : Nat)
    (inside : position < category.entries.size) :
    category.entries[position].kind = kind ∧ category.entries[position].index = position :=
  h.kind_index (by simp [inside])

end Category

-- ---------------------------------------------------------------------------
-- All categories of a table
-- ---------------------------------------------------------------------------

def Table.Indexed (table : Table) : Prop :=
  ∀ kind, (table.category kind).Indexed kind

namespace Table

theorem Indexed.fresh : Indexed {} := by
  intro kind
  cases kind <;> exact .empty _

theorem Indexed.define {table : Table} (h : table.Indexed) (kind : Kind) (name type : String) :
    (table.define kind name type).Indexed := by
  intro other
  rw [category_define]
  split
  · next hk => exact hk ▸ (h kind).add name type
  · exact h other

theorem Indexed.startSubroutine {table : Table} (h : table.Indexed) :
    table.startSubroutine.Indexed := by
  intro kind
  rw [category_startSubroutine]
  split
  · exact .empty kind
  · exact h kind

theorem Indexed.kind_of_mem {table : Table} (h : table.Indexed) {kind : Kind}
    {entry : Entry} (hmem : entry ∈ table.entries kind) : entry.kind = kind := by
  obtain ⟨i, hi⟩ := List.mem_iff_getElem?.mp hmem
  exact ((h kind).kind_index hi).1

theorem Indexed.lookup_eq {table : Table} (h : table.Indexed) (order : List Kind)
    (name : String) :
    table.lookup order name = (order.flatMap table.entries).find? (·.name = name) := by
  simp only [List.find?_flatMap, lookup, entries, (h _).find?_eq]

end Table

theorem Command.indexed_apply {table : Table} (h : table.Indexed) (command : Command) :
    (command.apply table).Indexed := by
  cases command with
  | renew => exact .fresh
  | startSubroutine => exact h.startSubroutine
  | define kind name type => exact h.define kind name type
  | ask => exact h

namespace Session

theorem indexed_final {table : Table} (h : table.Indexed) (commands : List Command) :
    (final table commands).Indexed := by
  induction commands generalizing table with
  | nil => exact h
  | cons command commands ih => exact ih (Command.indexed_apply h command)

/-- Every lookup by name, after any row of commands, answers as a scan of the
entries would: innermost scope first for what the name means, outermost first
for its type. -/
theorem lookups_eq_scan (commands : List Command) (name : String) :
    let table := final {} commands
    let meant := (table.entries .arg ++ table.entries .var ++ table.entries .static ++
      table.entries .field).find? (·.name = name)
    let typed := (table.entries .static ++ table.entries .field ++ table.entries .arg ++
      table.entries .var).find? (·.name = name)
    table.resolve name = meant ∧
      table.kindOf name = (meant.map Entry.kind).getD .field ∧
      table.indexOf name = meant.map Entry.index ∧
      table.storageOf name = meant.map (fun entry => ⟨entry.kind.segment, entry.index⟩) ∧
      table.typeOf name = typed.map Entry.type := by
  intro table meant typed
  have indexed : table.Indexed := indexed_final .fresh commands
  have hmeant : table.resolve name = meant := by
    rw [Table.resolve, indexed.lookup_eq]
    simp [Kind.resolveOrder, meant, Option.or_assoc]
  have htyped : table.lookup Kind.typeOrder name = typed := by
    rw [indexed.lookup_eq]
    simp [Kind.typeOrder, typed, Option.or_assoc]
  refine ⟨hmeant, ?_, ?_, ?_, ?_⟩
  · rw [Table.kindOf, hmeant]
  · rw [Table.indexOf, hmeant]
  · rw [Table.storageOf, hmeant]
    rfl
  · rw [Table.typeOf, htyped]

/-- The representation is sound after any row of commands, in the category of each kind. The
keys of the index are the names of the entries. The position kept for a name is inside the
entries and is the first at which the name stands, so that looking the name up reads
exactly there. An entry stands under its own kind and at its own index. -/
theorem categories_sound (commands : List Command) (kind : Kind) :
    let category := (final {} commands).category kind
    (∀ name, name ∈ category.first ↔ ∃ entry ∈ category.entries, entry.name = name) ∧
      (∀ name position, category.first[name]? = some position ↔
        ∃ inside : position < category.entries.size, category.entries[position].name = name ∧
          ∀ earlier, ∀ before : earlier < position, category.entries[earlier].name ≠ name) ∧
      (∀ name position, category.first[name]? = some position →
        ∃ inside : position < category.entries.size,
          category.find? name = some category.entries[position]) ∧
      (∀ name, name ∉ category.first → category.find? name = none) ∧
      ∀ position, ∀ inside : position < category.entries.size,
        category.entries[position].kind = kind ∧ category.entries[position].index = position := by
  intro category
  have indexed : category.Indexed kind := indexed_final .fresh commands kind
  refine ⟨indexed.mem_first_iff, indexed.first_eq_some_iff, fun _ _ => indexed.find?_of_first,
    fun name hname => ?_, indexed.kind_index_getElem⟩
  rw [Category.find?, Std.TreeMap.getElem?_eq_none hname]
  rfl

theorem categories_sound_redefined :
    let commands := [.startSubroutine, .define .var "i" "int", .define .arg "x" "int",
      .define .var "x" "char", .define .var "x" "Array"]
    let category := (final {} commands).category .var
    category.first["x"]? = some 1 ∧
      ∃ inside : 1 < category.entries.size, category.entries[1].name = "x" ∧
        category.find? "x" = some category.entries[1] := by
  intro commands category
  have hfirst : category.first["x"]? = some 1 := by decide +kernel
  obtain ⟨-, hleast, hread, -⟩ := categories_sound commands .var
  obtain ⟨inside, hname, -⟩ := (hleast "x" 1).mp hfirst
  obtain ⟨_, hfind⟩ := hread "x" 1 hfirst
  exact ⟨hfirst, inside, hname, hfind⟩

end Session

end JackScopes
