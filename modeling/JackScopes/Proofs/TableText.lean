import JackScopes.Proofs.Contents

/-!
# The text of a table

The text of a table lists what the table is made of, one item a line. The same items, read
as commands, make the table anew: the scopes one after the other, and within each scope
the entries kind by kind.
-/

namespace JackScopes

inductive Item
  | classScope
  | subroutineScope
  | listed (entry : Entry)

namespace Item

def text : Item → String
  | classScope => "class scope:"
  | subroutineScope => "subroutine scope:"
  | listed entry => "    " ++ entry.text

def command : Item → Command
  | classScope => .renew
  | subroutineScope => .startSubroutine
  | listed entry => .define entry.kind entry.name entry.type

end Item

namespace Table

def innerItems (table : Table) : List Item :=
  if table.inSubroutine then
    .subroutineScope :: (table.entries .arg ++ table.entries .var).map .listed
  else []

/-- What a table is made of, in the order of its text. -/
def items (table : Table) : List Item :=
  .classScope :: (table.entries .static ++ table.entries .field).map .listed ++ table.innerItems

/-- The lines of the text of a table. A missing scope is told of, too. -/
def textLines (table : Table) : List String :=
  table.items.map Item.text ++ if table.inSubroutine then [] else ["subroutine scope: (none)"]

variable {table : Table}

theorem exists_items (table : Table) :
    ∃ rest, table.items = .classScope :: rest ∧ ∀ item ∈ rest, item ≠ .classScope := by
  refine ⟨_, rfl, ?_⟩
  unfold innerItems
  split <;> simp [or_imp, forall_and]

theorem exists_mem_entries_of_mem_items {entry : Entry} (h : .listed entry ∈ table.items) :
    ∃ kind, entry ∈ table.entries kind := by
  have hentries : ∀ outer inner : Kind,
      .listed entry ∈ (table.entries outer ++ table.entries inner).map Item.listed →
        ∃ kind, entry ∈ table.entries kind := by
    intro outer inner hmem
    obtain ⟨other, hother, hitem⟩ := List.mem_map.mp hmem
    cases hitem
    exact (List.mem_append.mp hother).elim (⟨outer, ·⟩) (⟨inner, ·⟩)
  rcases List.mem_append.mp h with hclass | hinner
  · exact hentries _ _ (List.mem_of_ne_of_mem (by simp) hclass)
  · rw [innerItems] at hinner
    split at hinner
    · exact hentries _ _ (List.mem_of_ne_of_mem (by simp) hinner)
    · cases hinner

-- ---------------------------------------------------------------------------
-- Lines
-- ---------------------------------------------------------------------------

theorem entriesText_eq (table : Table) (outer inner : Kind) :
    table.entriesText outer inner =
      String.join (((table.entries outer ++ table.entries inner).map (Item.text ∘ Item.listed)).map
        (· ++ "\n")) := by
  rw [List.map_map]
  rfl

theorem text_eq (table : Table) : table.text = String.join (table.textLines.map (· ++ "\n")) := by
  have hclass : Item.classScope.text = "class scope:" := rfl
  have hsubroutine : Item.subroutineScope.text = "subroutine scope:" := rfl
  unfold text textLines items innerItems
  rw [entriesText_eq, entriesText_eq]
  cases table.inSubroutine <;>
    simp [hclass, hsubroutine, String.join_cons, String.join_append, String.append_assoc]

theorem toList_text (table : Table) :
    table.text.toList = (table.textLines.map String.toList).flatMap (· ++ ['\n']) := by
  simp [text_eq, List.flatMap_map]

end Table

theorem Entry.toList_text (entry : Entry) :
    entry.text.toList = entry.kind.name.toList ++ ' ' ::
      (Nat.toDigits 10 entry.index ++ ' ' ::
        (entry.name.toList ++ ':' :: ' ' :: entry.type.toList)) := by
  simp [text]

-- ---------------------------------------------------------------------------
-- Commands
-- ---------------------------------------------------------------------------

namespace Table

variable {table : Table}

theorem Indexed.entries_eq (h : table.Indexed) (kind : Kind) :
    table.entries kind =
      ((table.entries kind).map Declaration.ofEntry).mapIdx (Declaration.entry kind) := by
  apply List.ext_getElem?
  intro i
  rw [List.getElem?_mapIdx, List.getElem?_map, Option.map_map]
  cases hi : (table.entries kind)[i]? with
  | none => rfl
  | some entry =>
    obtain ⟨rfl, rfl⟩ := (h kind).kind_index hi
    rfl

theorem entries_of_not_inSubroutine (h : table.inSubroutine = false) {kind : Kind}
    (hlevel : kind.level = .perSubroutine) : table.entries kind = [] := by
  have hnone : table.subroutine = none := by simpa [inSubroutine] using h
  cases kind with
  | static | field => cases hlevel
  | arg | var => simp [entries, category, inner, hnone]

def definitions (table : Table) (kind : Kind) : List Command :=
  (table.entries kind).map fun entry => .define entry.kind entry.name entry.type

theorem commands_items (table : Table) :
    table.items.map Item.command =
      [.renew] ++ table.definitions .static ++ table.definitions .field ++
        if table.inSubroutine then
          [.startSubroutine] ++ table.definitions .arg ++ table.definitions .var
        else [] := by
  unfold items innerItems
  split <;> simp [definitions, Item.command, Function.comp_def]

theorem keeping_definitions (kind : Kind) : Session.Keeping (table.definitions kind) := by
  simp [Session.Keeping, definitions, Command.discards]

theorem Indexed.declared_definitions (h : table.Indexed) (own kind : Kind) :
    (table.definitions own).filterMap (·.declared? kind) =
      if own = kind then (table.entries kind).map Declaration.ofEntry else [] := by
  rw [definitions, List.filterMap_map]
  by_cases hk : own = kind
  · subst hk
    rw [if_pos rfl, ← List.filterMap_eq_map]
    refine List.filterMap_congr fun entry hmem => ?_
    simp [Command.declared?, h.kind_of_mem hmem, Declaration.ofEntry]
  · rw [if_neg hk, List.filterMap_eq_nil_iff]
    intro entry hmem
    simp [Command.declared?, h.kind_of_mem hmem, hk]

theorem Indexed.not_enters_definitions (h : table.Indexed) {kind : Kind}
    (hlevel : kind.level = .perClass) :
    (table.definitions kind).any Command.entersSubroutine = false := by
  rw [definitions, List.any_map, List.any_eq_false]
  intro entry hmem
  simp [Command.entersSubroutine, h.kind_of_mem hmem, hlevel]

end Table

namespace Session

variable {table : Table}

theorem live_append_definitions (h : table.Indexed) (before : List Command) (own kind : Kind) :
    live kind (before ++ table.definitions own) =
      live kind before ++
        if own = kind then (table.entries kind).map Declaration.ofEntry else [] := by
  have hkeeping : ∀ command ∈ table.definitions own, command.discards kind = false :=
    fun command hc => Table.keeping_definitions own command hc kind
  rw [live_append before hkeeping, h.declared_definitions]

theorem live_items (h : table.Indexed) (kind : Kind) :
    live kind (table.items.map Item.command) = (table.entries kind).map Declaration.ofEntry := by
  have hrenewed : live kind [.renew] = [] := live_concat kind [] .renew
  rw [Table.commands_items]
  cases hscope : table.inSubroutine with
  | false =>
    have hnone : kind.level = .perSubroutine → table.entries kind = [] :=
      Table.entries_of_not_inSubroutine hscope
    rw [if_neg Bool.false_ne_true, List.append_nil, live_append_definitions h,
      live_append_definitions h, hrenewed]
    cases kind <;> simp [Kind.level] at hnone ⊢ <;> exact hnone
  | true =>
    rw [if_pos rfl, ← List.append_assoc, ← List.append_assoc, live_append_definitions h,
      live_append_definitions h, live_concat, live_append_definitions h,
      live_append_definitions h, hrenewed]
    cases kind <;> simp [Command.discards, Command.declared?, Kind.level]

theorem inSubroutine_items (h : table.Indexed) :
    (final {} (table.items.map Item.command)).inSubroutine = table.inSubroutine := by
  rw [Table.commands_items]
  cases hscope : table.inSubroutine with
  | false =>
    rw [if_neg Bool.false_ne_true, List.append_nil, final_append, final_append,
      inSubroutine_final_of_keeping _ (Table.keeping_definitions .field),
      inSubroutine_final_of_keeping _ (Table.keeping_definitions .static),
      h.not_enters_definitions rfl, h.not_enters_definitions rfl]
    rfl
  | true =>
    rw [if_pos rfl, ← List.append_assoc, ← List.append_assoc, final_append, final_append,
      inSubroutine_final_of_keeping _ (Table.keeping_definitions .var),
      inSubroutine_final_of_keeping _ (Table.keeping_definitions .arg), final_concat]
    simp [Command.apply]

/-- The items of a table make it anew. -/
theorem agree_items (h : table.Indexed) :
    (final {} (table.items.map Item.command)).Agree table where
  entries kind := by rw [entries_final, live_items h, ← h.entries_eq]
  inSubroutine := inSubroutine_items h
  indexed := indexed_final .fresh _
  indexed_other := h

end Session

end JackScopes
