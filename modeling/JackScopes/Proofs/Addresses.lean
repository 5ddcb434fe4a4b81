import JackScopes.Proofs.NameIndex

/-!
# Addresses

No two variables share an address. An entry's storage tells its kind and its position
under the kind, so that entries at different places have different storages; and a
name's storage leads back to the entry that the name means.
-/

namespace JackScopes

theorem Entry.storage_eq_iff {entry other : Entry} :
    entry.storage = other.storage ↔ entry.kind = other.kind ∧ entry.index = other.index := by
  rw [storage, storage, Storage.mk.injEq]
  refine and_congr_left fun _ => ?_
  exact ⟨Kind.segment_injective, fun h => by rw [h]⟩

namespace Table

variable {table : Table}

theorem Indexed.storage_injective (h : table.Indexed) {kind otherKind : Kind} {i j : Nat}
    {entry other : Entry} (hentry : (table.entries kind)[i]? = some entry)
    (hother : (table.entries otherKind)[j]? = some other)
    (hstorage : entry.storage = other.storage) : kind = otherKind ∧ i = j := by
  obtain ⟨hkind, hindex⟩ := Entry.storage_eq_iff.mp hstorage
  obtain ⟨rfl, rfl⟩ := (h kind).kind_index hentry
  obtain ⟨rfl, rfl⟩ := (h otherKind).kind_index hother
  exact ⟨hkind, hindex⟩

theorem Indexed.getElem?_of_resolve (h : table.Indexed) {name : String} {entry : Entry}
    (hr : table.resolve name = some entry) :
    (table.entries entry.kind)[entry.index]? = some entry ∧ entry.name = name := by
  obtain ⟨kind, -, hfind⟩ := List.exists_of_findSome?_eq_some hr
  rw [(h kind).find?_eq] at hfind
  obtain ⟨i, hi⟩ := List.mem_iff_getElem?.mp (List.mem_of_find?_eq_some hfind)
  obtain ⟨rfl, rfl⟩ := (h kind).kind_index hi
  exact ⟨hi, by simpa using List.find?_some hfind⟩

theorem storageOf_eq_some_iff {name : String} {storage : Storage} :
    table.storageOf name = some storage ↔
      ∃ entry, table.resolve name = some entry ∧ entry.storage = storage :=
  Option.map_eq_some_iff

theorem Indexed.storageOf_injective (h : table.Indexed) {name other : String}
    {storage : Storage} (hname : table.storageOf name = some storage)
    (hother : table.storageOf other = some storage) : name = other := by
  obtain ⟨entry, hentry, rfl⟩ := storageOf_eq_some_iff.mp hname
  obtain ⟨second, hsecond, hstorage⟩ := storageOf_eq_some_iff.mp hother
  obtain ⟨hkind, hindex⟩ := Entry.storage_eq_iff.mp hstorage
  obtain ⟨hat, rfl⟩ := h.getElem?_of_resolve hentry
  obtain ⟨hsame, rfl⟩ := h.getElem?_of_resolve hsecond
  rw [hkind, hindex, hat] at hsame
  rw [Option.some.inj hsame]

end Table

namespace Session

/-- Storages are not shared, after any row of commands: entries at different places have
different ones, names with one storage are one name, and the storage of a name tells the
kind and the position of the entry that the name means. -/
theorem storages_distinct (commands : List Command) :
    let table := final {} commands
    (∀ (kind otherKind : Kind) (i j : Nat) (entry other : Entry),
      (table.entries kind)[i]? = some entry → (table.entries otherKind)[j]? = some other →
        entry.storage = other.storage → kind = otherKind ∧ i = j) ∧
      (∀ (name other : String) (storage : Storage), table.storageOf name = some storage →
        table.storageOf other = some storage → name = other) ∧
      ∀ (name : String) (storage : Storage), table.storageOf name = some storage →
        ∃ kind entry, kind.segment = storage.segment ∧
          (∀ other : Kind, other.segment = storage.segment → other = kind) ∧
          storage.index < table.count kind ∧
          (table.entries kind)[storage.index]? = some entry ∧ entry.name = name ∧
          table.resolve name = some entry := by
  intro table
  have indexed : table.Indexed := indexed_final .fresh commands
  refine ⟨fun _ _ _ _ _ _ => indexed.storage_injective,
    fun _ _ _ => indexed.storageOf_injective, ?_⟩
  intro name storage hstorage
  obtain ⟨entry, hentry, rfl⟩ := Table.storageOf_eq_some_iff.mp hstorage
  obtain ⟨hat, hname⟩ := indexed.getElem?_of_resolve hentry
  refine ⟨entry.kind, entry, rfl, fun _ => Kind.segment_injective, ?_, hat, hname, hentry⟩
  rw [← Table.length_entries]
  exact (List.getElem?_eq_some_iff.mp hat).1

end Session

end JackScopes
