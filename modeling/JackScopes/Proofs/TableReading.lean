import JackScopes.Proofs.TableText
import JackScopes.Proofs.Text.Words

/-!
# Reading a table off its text

The text of a table tells the table, as long as its names are identifiers and no line ends
within a type. Then each line is one item or tells of a missing scope, no two of which
share a line; and a table is known from its items. A type may look like a whole line, for
it comes last on its own.
-/

namespace JackScopes

open Text (Identifier)

/-- An entry whose text is one line, with the end of the name to be seen. -/
structure Entry.Legible (entry : Entry) : Prop where
  name : Identifier entry.name.toList
  type : '\n' ∉ entry.type.toList

/-- What a line of the text of a table says: an item, or that a scope is missing. -/
abbrev Line := Option Item

namespace Line

def text : Line → String
  | some item => item.text
  | none => "subroutine scope: (none)"

def Legible (line : Line) : Prop :=
  ∀ entry, line = some (.listed entry) → entry.Legible

end Line

-- ---------------------------------------------------------------------------
-- One line
-- ---------------------------------------------------------------------------

theorem Kind.space_not_mem_name (kind : Kind) : ' ' ∉ kind.name.toList := by
  cases kind <;> decide

theorem Kind.newline_not_mem_name (kind : Kind) : '\n' ∉ kind.name.toList := by
  cases kind <;> decide

theorem Kind.name_injective {kind other : Kind} (h : kind.name = other.name) : kind = other := by
  have hsome := Kind.ofString?_name kind
  rw [h, Kind.ofString?_name] at hsome
  exact (Option.some.inj hsome).symm

namespace Entry

variable {first second entry : Entry}

/-- Blanks end the kind and the index, a colon ends the name, and the type is the rest. -/
theorem Legible.text_injective (hfirst : first.Legible) (hsecond : second.Legible)
    (h : first.text = second.text) : first = second := by
  have hlist := congrArg String.toList h
  rw [toList_text, toList_text] at hlist
  obtain ⟨hkind, hrest⟩ :=
    Text.cut_unique (Kind.space_not_mem_name _) (Kind.space_not_mem_name _) hlist
  obtain ⟨hindex, hnamed⟩ :=
    Text.cut_unique (Text.not_mem_toDigits rfl _) (Text.not_mem_toDigits rfl _) hrest
  obtain ⟨hname, htype⟩ := Text.cut_unique (hfirst.name.not_mem (by decide))
    (hsecond.name.not_mem (by decide)) hnamed
  obtain ⟨name, type, kind, index⟩ := first
  obtain rfl := Kind.name_injective (String.toList_inj.mp hkind)
  obtain rfl := Text.toDigits_injective hindex
  obtain rfl := String.toList_inj.mp hname
  obtain rfl := String.toList_inj.mp (List.cons.inj htype).2
  rfl

theorem Legible.newline_not_mem_text (h : entry.Legible) : '\n' ∉ entry.text.toList := by
  have hdigits : '\n' ∉ Nat.toDigits 10 entry.index := Text.not_mem_toDigits rfl _
  have hname : '\n' ∉ entry.name.toList := h.name.not_mem (by decide)
  rw [toList_text]
  simp [Kind.newline_not_mem_name, hdigits, hname, h.type]

end Entry

namespace Line

variable {line first second : Line}

theorem Legible.newline_not_mem_text (h : line.Legible) : '\n' ∉ line.text.toList := by
  rcases line with _ | item
  · decide
  · cases item with
    | classScope | subroutineScope => decide
    | listed entry =>
      have hentry := (h entry rfl).newline_not_mem_text
      simp [text, Item.text, hentry]

/-- Only entries are indented. -/
theorem head?_text (line : Line) :
    line.text.toList.head? = some ' ' ↔ ∃ entry, line = some (.listed entry) := by
  rcases line with _ | item
  · simp [text]
  · cases item <;> simp [text, Item.text]

theorem text_injective_of_not_listed (hfirst : ∀ entry, first ≠ some (.listed entry))
    (hsecond : ∀ entry, second ≠ some (.listed entry)) (h : first.text = second.text) :
    first = second := by
  rcases first with _ | (_ | _ | entry) <;> rcases second with _ | (_ | _ | other) <;>
    simp_all [text, Item.text]

theorem Legible.text_injective (hfirst : first.Legible) (hsecond : second.Legible)
    (h : first.text = second.text) : first = second := by
  have hsame : (∃ entry, first = some (.listed entry)) ↔
      ∃ entry, second = some (.listed entry) := by
    rw [← head?_text, ← head?_text, h]
  by_cases hlisted : ∃ entry, first = some (.listed entry)
  · obtain ⟨entry, rfl⟩ := hlisted
    obtain ⟨other, rfl⟩ := hsame.mp ⟨entry, rfl⟩
    have htext : entry.text = other.text := by
      simpa [text, Item.text, ← String.toList_inj] using h
    rw [(hfirst entry rfl).text_injective (hsecond other rfl) htext]
  · exact text_injective_of_not_listed (not_exists.mp hlisted)
      (not_exists.mp (mt hsame.mpr hlisted)) h

end Line

-- ---------------------------------------------------------------------------
-- All lines
-- ---------------------------------------------------------------------------

namespace Table

variable {table other : Table}

def Legible (table : Table) : Prop :=
  ∀ kind, ∀ entry ∈ table.entries kind, entry.Legible

def lines (table : Table) : List Line :=
  table.items.map some ++ if table.inSubroutine then [] else [none]

theorem textLines_eq (table : Table) : table.textLines = table.lines.map Line.text := by
  unfold textLines lines
  cases table.inSubroutine <;> simp [Line.text, Function.comp_def]

theorem items_eq (table : Table) : table.items = table.lines.filterMap id := by
  unfold lines
  cases table.inSubroutine <;> simp

theorem Legible.line (h : table.Legible) : ∀ line ∈ table.lines, line.Legible := by
  rintro line hline entry rfl
  have hitem : .listed entry ∈ table.items := by
    rw [items_eq]
    exact List.mem_filterMap.mpr ⟨_, hline, rfl⟩
  obtain ⟨kind, hentry⟩ := exists_mem_entries_of_mem_items hitem
  exact h kind entry hentry

/-- Tables of one text are made of the same items. -/
theorem Legible.items_eq_of_text (h : table.Legible) (ho : other.Legible)
    (htext : table.text = other.text) : table.items = other.items := by
  have hrows : (table.lines.map (·.text.toList)).flatMap (· ++ ['\n']) =
      (other.lines.map (·.text.toList)).flatMap (· ++ ['\n']) := by
    have hlist := congrArg String.toList htext
    rw [toList_text, toList_text, textLines_eq, textLines_eq, List.map_map, List.map_map] at hlist
    exact hlist
  have hlines : table.lines.map (·.text.toList) = other.lines.map (·.text.toList) := by
    refine Text.ended_injective ?_ ?_ hrows
    · exact List.forall_mem_map.mpr fun line hl => (h.line line hl).newline_not_mem_text
    · exact List.forall_mem_map.mpr fun line hl => (ho.line line hl).newline_not_mem_text
  have hsame : table.lines = other.lines := by
    refine Text.eq_of_map_eq (fun line hl another ha heq => ?_) hlines
    exact (h.line line hl).text_injective (ho.line another ha) (String.toList_inj.mp heq)
  rw [items_eq, items_eq, hsame]

end Table

-- ---------------------------------------------------------------------------
-- Tables after rows of commands
-- ---------------------------------------------------------------------------

namespace Session

theorem define_mem_of_mem_live {kind : Kind} {commands : List Command}
    {declaration : Declaration} (h : declaration ∈ live kind commands) :
    .define kind declaration.name declaration.type ∈ commands := by
  obtain ⟨command, hcommand, hdeclared⟩ := List.mem_filterMap.mp h
  have hmem := (List.rtakeWhile_suffix _ commands).subset hcommand
  cases command with
  | define other name type =>
    rw [Command.declared?] at hdeclared
    split at hdeclared
    · next hkind =>
      cases hdeclared
      exact hkind ▸ hmem
    · cases hdeclared
  | renew | startSubroutine | ask query => cases hdeclared

/-- All that is defined has an identifier for its name and a type of one line. -/
def Legible (commands : List Command) : Prop :=
  ∀ kind name type, .define kind name type ∈ commands →
    Identifier name.toList ∧ '\n' ∉ type.toList

theorem Legible.final {commands : List Command} (h : Legible commands) :
    (final {} commands).Legible := by
  intro kind entry hentry
  rw [entries_final, List.mem_mapIdx] at hentry
  obtain ⟨i, hi, rfl⟩ := hentry
  obtain ⟨hname, htype⟩ := h _ _ _ (define_mem_of_mem_live (List.getElem_mem hi))
  exact ⟨hname, htype⟩

/-- The text of a table determines it. Two rows of commands that leave tables of one text
leave tables of the same entries, with a subroutine scope both or neither, that answer
every query alike, if all their names are identifiers and no type has a line feed. -/
theorem text_determines {first second : List Command} (hfirst : Legible first)
    (hsecond : Legible second) (h : (final {} first).text = (final {} second).text) :
    (final {} first).inSubroutine = (final {} second).inSubroutine ∧
      (∀ kind, (final {} first).entries kind = (final {} second).entries kind) ∧
      ∀ query, (final {} first).answer query = (final {} second).answer query := by
  have hitems := hfirst.final.items_eq_of_text hsecond.final h
  have hleft := agree_items (indexed_final .fresh first)
  have hright := agree_items (indexed_final .fresh second)
  rw [hitems] at hleft
  refine ⟨?_, fun kind => ?_, fun query => ?_⟩
  · rw [← hleft.inSubroutine, hright.inSubroutine]
  · rw [← hleft.entries, hright.entries]
  · rw [← hleft.answer, hright.answer]

/-- Two ways to one table, with types that look like lines of its text or are empty. -/
def roundabout : List Command :=
  [.define .arg "gone" "", .define .field "x" "    STATIC 0 y: int", .startSubroutine,
    .define .var "x" "\r", .define .arg "z" ""]

def straight : List Command :=
  [.startSubroutine, .define .arg "z" "", .define .var "x" "\r",
    .define .field "x" "    STATIC 0 y: int"]

theorem text_determines_roundabout :
    Legible roundabout ∧ Legible straight ∧
      (final {} roundabout).text = (final {} straight).text ∧
      (∀ kind, (final {} roundabout).entries kind = (final {} straight).entries kind) ∧
      (final {} straight).entries .static = [] ∧
      (final {} roundabout).answer (.resolve "x") = .entry (some ⟨"x", "\r", .var, 0⟩) := by
  have hroundabout : Legible roundabout := by
    intro kind name type h
    simp only [roundabout, List.mem_cons, Command.define.injEq, reduceCtorEq, List.not_mem_nil,
      false_or, or_false] at h
    rcases h with ⟨-, rfl, rfl⟩ | ⟨-, rfl, rfl⟩ | ⟨-, rfl, rfl⟩ | ⟨-, rfl, rfl⟩ <;>
      exact ⟨Text.isIdentifier_iff.mp (by decide), by decide⟩
  have hstraight : Legible straight := by
    intro kind name type h
    simp only [straight, List.mem_cons, Command.define.injEq, reduceCtorEq, List.not_mem_nil,
      false_or, or_false] at h
    rcases h with ⟨-, rfl, rfl⟩ | ⟨-, rfl, rfl⟩ | ⟨-, rfl, rfl⟩ <;>
      exact ⟨Text.isIdentifier_iff.mp (by decide), by decide⟩
  have htext : (final {} roundabout).text = (final {} straight).text := by decide +kernel
  obtain ⟨-, hentries, hanswers⟩ := text_determines hroundabout hstraight htext
  refine ⟨hroundabout, hstraight, htext, hentries, by decide +kernel, ?_⟩
  rw [hanswers]
  decide +kernel

end Session

end JackScopes
