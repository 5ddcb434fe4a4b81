import JackScopes.Proofs.TableText
import JackScopes.Proofs.Text.Layout
import JackScopes.Proofs.Trace.Acceptance
import JackScopes.Proofs.Trace.ReportText

/-!
# Tables told again

The text of a table that a trace has left can be told as a trace: each entry as a
declaration of its own, behind a line that opens the class and, if there is a subroutine
scope, one that starts a subroutine. Followed again, it leaves a table of the same
entries and the same text.
-/

namespace JackScopes.Trace

open Text (Word Identifier Tight Gap)

-- ---------------------------------------------------------------------------
-- From the text of a table to a trace
-- ---------------------------------------------------------------------------

/-- The line of an entry, `KIND index name: type` behind some blanks, as the declaration
`KIND type name`. -/
def retoldEntry (line : List Char) : List Char :=
  let entry := Text.trim line
  let named := Text.afterWord (Text.afterWord entry)
  Text.firstWord entry ++ ' ' :: (Text.afterWord named ++ ' ' :: named.takeWhile (· ≠ ':'))

def retoldLine (className subroutine : String) (line : List Char) : Option (List Char) :=
  if line = "class scope:".toList then some ("class " ++ className).toList
  else if line = "subroutine scope:".toList then some ("subroutine " ++ subroutine).toList
  else if line = "subroutine scope: (none)".toList then none
  else some (retoldEntry line)

/-- The text of a table as a trace of one class, with a name for the subroutine. -/
def retold (className subroutine text : String) : String :=
  String.ofList (((Text.lines text.toList).filterMap (retoldLine className subroutine)).flatMap
    (· ++ ['\n']))

def Sentence.ofItem (className subroutine : String) : Item → Sentence
  | .classScope => .openClass className
  | .subroutineScope => .startSubroutine subroutine
  | .listed entry => .declare entry.kind entry.type [entry.name]

def declarationLine (entry : Entry) : List Char :=
  entry.kind.name.toList ++ ' ' :: (entry.type.toList ++ ' ' :: entry.name.toList)

def retoldItem (className subroutine : String) : Item → List Char
  | .classScope => ("class " ++ className).toList
  | .subroutineScope => ("subroutine " ++ subroutine).toList
  | .listed entry => declarationLine entry

-- ---------------------------------------------------------------------------
-- Declarations that can be written
-- ---------------------------------------------------------------------------

/-- A declaration that a line of a trace can hold: its type has no blanks and no slashes
that would start a comment. -/
structure Spelled (declaration : Declaration) : Prop where
  name : Identifier declaration.name.toList
  type : Word declaration.type.toList
  uncommented : ¬ ['/', '/'] <:+: declaration.type.toList

theorem Sentence.OnLine.uncommented {kind : Kind} {type : String} {names : List String}
    {line : List Char} (h : (Sentence.declare kind type names).OnLine line) :
    ¬ ['/', '/'] <:+: type.toList := by
  rw [Sentence.onLine_iff] at h
  obtain ⟨left, right, hcode, -, -, -⟩ := Text.within_trim (Text.withoutComment line)
  generalize Text.trim (Text.withoutComment line) = content at h hcode
  cases h with
  | @declare _ _ _ word gap space list _ _ _ _ _ =>
    intro hslashes
    apply Text.not_infix_withoutComment line
    rw [hcode]
    exact hslashes.trans ⟨left ++ word ++ gap, space ++ list ++ right, by simp⟩

theorem Says.spelled {text : String} {sentences : List Sentence} (h : Says text sentences)
    {sentence : Sentence} (hs : sentence ∈ sentences) {kind : Kind} {declaration : Declaration}
    (hd : declaration ∈ sentence.declared kind) : Spelled declaration := by
  obtain ⟨line, hline⟩ := h.exists_onLine hs
  cases sentence with
  | declare other type names =>
    rw [Sentence.declared] at hd
    split at hd
    · obtain ⟨name, hname, rfl⟩ := List.mem_map.mp hd
      exact ⟨h.identifier hs hname, (Sentence.onLine_iff.mp hline).word, hline.uncommented⟩
    · cases hd
  | blank | openClass name | startSubroutine name | resolve name => cases hd

/-- All that is in sight anywhere in a trace has been written there. -/
theorem Says.spelled_of_visible {text : String} {before after : List Sentence}
    (h : Says text (before ++ after)) {kind : Kind} {declaration : Declaration}
    (hd : declaration ∈ visible kind before) : Spelled declaration := by
  obtain ⟨sentence, hs, hdeclared⟩ := List.mem_flatMap.mp hd
  have hmem := (List.rtakeWhile_suffix _ before).subset hs
  exact h.spelled (List.mem_append_left _ hmem) hdeclared

-- ---------------------------------------------------------------------------
-- The tables of a report
-- ---------------------------------------------------------------------------

namespace Progress

/-- Each table of the report is the table at hand somewhere in the trace. -/
theorem exists_tableAt_of_mem {sentences : List Sentence} {className : String} {table : Table}
    (h : (className, table) ∈ (heedAll {} sentences).classes.toList) :
    ∃ before after, sentences = before ++ after ∧ classAt before = some className ∧
      table = tableAt before := by
  induction sentences using List.reverseRecOn with
  | nil => simp [heedAll, classes] at h
  | append_singleton sentences sentence ih =>
    rw [toList_classes, List.mem_append] at h
    rcases h with hclosed | hcurrent
    · have hearlier : (className, table) ∈ (heedAll {} sentences).classes.toList := by
        rw [heedAll_concat, closed_heed] at hclosed
        split at hclosed
        · exact (closed_prefix_classes _).subset hclosed
        · exact hclosed
      obtain ⟨before, after, rfl, hclass, htable⟩ := ih hearlier
      exact ⟨before, after ++ [sentence], by simp, hclass, htable⟩
    · rw [current_heedAll] at hcurrent
      cases hclass : classAt (sentences ++ [sentence]) with
      | none => simp [hclass] at hcurrent
      | some name =>
        obtain ⟨rfl, rfl⟩ : className = name ∧ table = tableAt (sentences ++ [sentence]) := by
          simpa [hclass] using hcurrent
        exact ⟨_, [], by simp, hclass, rfl⟩

end Progress

-- ---------------------------------------------------------------------------
-- The line of an entry
-- ---------------------------------------------------------------------------

theorem word_kind_name (kind : Kind) : Word kind.name.toList := by
  cases kind <;> exact Text.word_of_all (by simp [Kind.name]) rfl

section Entry

variable {entry : Entry} (h : Spelled (.ofEntry entry))

include h

theorem Spelled.word_type : Word entry.type.toList :=
  h.type

theorem Spelled.identifier_name : Identifier entry.name.toList :=
  h.name

/-- A name with the colon behind it is one word, and the type is what follows. -/
theorem Spelled.word_named : Word (entry.name.toList ++ [':']) where
  nonempty := by simp
  solid c hc := by
    rcases List.mem_append.mp hc with hname | hcolon
    · exact h.identifier_name.word.solid c hname
    · rw [List.mem_singleton.mp hcolon]
      rfl

theorem Spelled.tight_named : Tight (entry.name.toList ++ ':' :: ' ' :: entry.type.toList) := by
  rw [List.append_cons]
  exact Text.tight_space h.word_named h.word_type.tight h.word_type.nonempty

theorem Spelled.tight_numbered :
    Tight (Nat.toDigits 10 entry.index ++ ' ' ::
      (entry.name.toList ++ ':' :: ' ' :: entry.type.toList)) :=
  Text.tight_space (Text.word_toDigits _) h.tight_named (by simp)

theorem Spelled.tight_text : Tight entry.text.toList := by
  rw [entry.toList_text]
  exact Text.tight_space (word_kind_name _) h.tight_numbered (by simp)

theorem Spelled.trim_line : Text.trim (Item.listed entry).text.toList = entry.text.toList := by
  have hblanks : Text.Blanks "    ".toList := by simp [Text.Blanks, Text.isBlank]
  rw [Item.text, String.toList_append, Text.trim_append_left hblanks, h.tight_text.trim_eq]

theorem Spelled.retoldEntry_line :
    retoldEntry (Item.listed entry).text.toList = declarationLine entry := by
  have htype : Text.afterWord (entry.name.toList ++ ':' :: ' ' :: entry.type.toList) =
      entry.type.toList := by
    rw [List.append_cons, Text.afterWord_space h.word_named h.word_type.tight]
  have hname : (entry.name.toList ++ ':' :: ' ' :: entry.type.toList).takeWhile (· ≠ ':') =
      entry.name.toList := by
    have hcolon : ∀ c ∈ entry.name.toList, decide (c ≠ ':') = true := fun c hc =>
      decide_eq_true fun hcolon => h.identifier_name.not_mem (by decide) (hcolon ▸ hc)
    rw [List.takeWhile_append_of_pos hcolon]
    simp
  rw [retoldEntry, h.trim_line, entry.toList_text, Text.firstWord_space (word_kind_name _),
    Text.afterWord_space (word_kind_name _) h.tight_numbered,
    Text.afterWord_space (Text.word_toDigits _) h.tight_named, htype, hname, declarationLine]

end Entry

-- ---------------------------------------------------------------------------
-- The lines of items
-- ---------------------------------------------------------------------------

/-- A line that is read as it is once it is ended. -/
def Plain (line : List Char) : Prop :=
  '\n' ∉ line ∧ line.getLast? ≠ some '\r'

theorem plain_append {left word : List Char} (hl : '\n' ∉ left) (hw : Word word) :
    Plain (left ++ word) := by
  refine ⟨by simp [hl, hw.newline_not_mem], fun hlast => ?_⟩
  rw [List.getLast?_append_of_ne_nil _ hw.nonempty] at hlast
  exact absurd (hw.tight.last _ hlast) (by decide)

theorem lines_ended_of_plain {ls : List (List Char)} (h : ∀ l ∈ ls, Plain l) :
    Text.lines (ls.flatMap (· ++ ['\n'])) = ls :=
  Text.lines_flatMap_ended (fun l hl => (h l hl).1) fun l hl => (h l hl).2

theorem Sentence.onLine_of_tight {sentence : Sentence} {line : List Char}
    (hwritten : sentence.Written line) (ht : Tight line)
    (hcode : Text.withoutComment line = line) : sentence.OnLine line := by
  rw [onLine_iff, hcode, ht.trim_eq]
  exact hwritten

theorem onLine_labelled {sentence : Sentence} {label name : String} (hlabel : Word label.toList)
    (hslash : '/' ∉ label.toList) (hname : Identifier name.toList)
    (hwritten : ∀ {cs}, Labelled label name cs → sentence.Written cs) :
    sentence.OnLine (label.toList ++ ' ' :: name.toList) := by
  have hnone : '/' ∉ label.toList ++ ' ' :: name.toList := by
    simp [hslash, hname.slash_not_mem]
  refine Sentence.onLine_of_tight (hwritten ⟨[' '], Text.gap_space, hname, by simp⟩) ?_ ?_
  · exact Text.tight_space hlabel hname.word.tight hname.word.nonempty
  · exact Text.withoutComment_of_slash_not_mem hnone

theorem slash_not_mem_kind_name (kind : Kind) : '/' ∉ kind.name.toList := by
  cases kind <;> decide

/-- The slashes of a declaration are all in its type, where no comment starts. -/
theorem Spelled.withoutComment_declarationLine {entry : Entry}
    (h : Spelled (.ofEntry entry)) :
    Text.withoutComment (declarationLine entry) = declarationLine entry := by
  have hkind : '/' ∉ entry.kind.name.toList ++ [' '] := by
    simp [slash_not_mem_kind_name]
  have hname : '/' ∉ ' ' :: entry.name.toList := by
    simp [h.identifier_name.slash_not_mem]
  have htype : Text.withoutComment entry.type.toList = entry.type.toList :=
    Text.withoutComment_eq_self_iff.mpr h.uncommented
  rw [declarationLine, List.append_cons, Text.withoutComment_append_left hkind,
    Text.withoutComment_append (by simp), if_pos htype,
    Text.withoutComment_of_slash_not_mem hname]

theorem Spelled.written_declarationLine {entry : Entry} (h : Spelled (.ofEntry entry)) :
    (Sentence.declare entry.kind entry.type [entry.name]).Written (declarationLine entry) := by
  have hkeyword := ofString?_eq_some_iff.mp (Kind.ofString?_name entry.kind)
  have hwritten := Sentence.Written.declare hkeyword Text.gap_space h.word_type Text.gap_space
    (NameList.single h.identifier_name)
  simpa [declarationLine] using hwritten

inductive Tellable : Item → Prop
  | classScope : Tellable .classScope
  | subroutineScope : Tellable .subroutineScope
  | listed {entry : Entry} : Spelled (.ofEntry entry) → Tellable (.listed entry)

namespace Tellable

variable {className subroutine : String} {item : Item}

theorem retoldLine_text (h : Tellable item) :
    retoldLine className subroutine item.text.toList =
      some (retoldItem className subroutine item) := by
  cases h with
  | classScope => rfl
  | subroutineScope => rfl
  | @listed entry hspelled =>
    -- the lines of the scopes are not indented
    have hhead : (Item.listed entry).text.toList.head? = some ' ' := by simp [Item.text]
    have hne : ∀ other : List Char, other.head? ≠ some ' ' →
        (Item.listed entry).text.toList ≠ other := fun other ho he => ho (he ▸ hhead)
    rw [retoldLine, if_neg (hne _ (by decide)), if_neg (hne _ (by decide)),
      if_neg (hne _ (by decide)), hspelled.retoldEntry_line]
    rfl

theorem plain_text (h : Tellable item) : Plain item.text.toList := by
  cases h with
  | classScope => exact ⟨by decide, by decide⟩
  | subroutineScope => exact ⟨by decide, by decide⟩
  | @listed entry hspelled =>
    have hleft : '\n' ∉ "    ".toList ++ entry.kind.name.toList ++ ' ' ::
        (Nat.toDigits 10 entry.index ++ ' ' :: (entry.name.toList ++ [':', ' '])) := by
      simp [(word_kind_name entry.kind).newline_not_mem,
        (Text.word_toDigits entry.index).newline_not_mem,
        hspelled.identifier_name.word.newline_not_mem]
    have hplain := plain_append hleft hspelled.word_type
    rw [Item.text, String.toList_append, entry.toList_text]
    simpa using hplain

variable (hclass : Identifier className.toList) (hsubroutine : Identifier subroutine.toList)

include hclass hsubroutine

theorem plain_retoldItem (h : Tellable item) : Plain (retoldItem className subroutine item) := by
  cases h with
  | classScope =>
    rw [retoldItem, String.toList_append]
    exact plain_append (by decide) hclass.word
  | subroutineScope =>
    rw [retoldItem, String.toList_append]
    exact plain_append (by decide) hsubroutine.word
  | @listed entry hspelled =>
    have hleft : '\n' ∉ entry.kind.name.toList ++ ' ' :: (entry.type.toList ++ [' ']) := by
      simp [(word_kind_name entry.kind).newline_not_mem, hspelled.word_type.newline_not_mem]
    have hplain := plain_append hleft hspelled.identifier_name.word
    rw [retoldItem, declarationLine]
    simpa using hplain

theorem onLine_retoldItem (h : Tellable item) :
    (Sentence.ofItem className subroutine item).OnLine (retoldItem className subroutine item) := by
  cases h with
  | classScope =>
    have hword : Word "class".toList := Text.word_of_all (by simp) rfl
    have hline := onLine_labelled hword (by decide) hclass Sentence.Written.openClass
    simpa [retoldItem, Sentence.ofItem] using hline
  | subroutineScope =>
    have hword : Word "subroutine".toList := Text.word_of_all (by simp) rfl
    have hline :=
      onLine_labelled hword (by decide) hsubroutine Sentence.Written.startSubroutine
    simpa [retoldItem, Sentence.ofItem] using hline
  | @listed entry hspelled =>
    have hname := hspelled.identifier_name.word
    have htight := Text.tight_space (word_kind_name entry.kind)
      (Text.tight_space hspelled.word_type hname.tight hname.nonempty) (by simp)
    exact Sentence.onLine_of_tight hspelled.written_declarationLine htight
      hspelled.withoutComment_declarationLine

end Tellable

-- ---------------------------------------------------------------------------
-- The trace of a table
-- ---------------------------------------------------------------------------

section Retold

variable {className subroutine : String} {table : Table}

theorem lines_text (h : ∀ item ∈ table.items, Tellable item) :
    Text.lines table.text.toList = table.textLines.map String.toList := by
  rw [Table.toList_text]
  refine lines_ended_of_plain fun l hl => ?_
  obtain ⟨line, hline, rfl⟩ := List.mem_map.mp hl
  rcases List.mem_append.mp hline with hitem | hmissing
  · obtain ⟨item, hmem, rfl⟩ := List.mem_map.mp hitem
    exact (h item hmem).plain_text
  · split at hmissing
    · cases hmissing
    · rw [List.mem_singleton.mp hmissing]
      exact ⟨by decide, by decide⟩

theorem filterMap_retoldLine (h : ∀ item ∈ table.items, Tellable item) :
    (table.textLines.map String.toList).filterMap (retoldLine className subroutine) =
      table.items.map (retoldItem className subroutine) := by
  have hmissing : ((if table.inSubroutine then [] else ["subroutine scope: (none)"]).map
      String.toList).filterMap (retoldLine className subroutine) = [] := by
    split <;> rfl
  rw [Table.textLines, List.map_append, List.filterMap_append, hmissing, List.append_nil,
    List.map_map, List.filterMap_map, ← List.filterMap_eq_map]
  exact List.filterMap_congr fun item hitem => (h item hitem).retoldLine_text

theorem says_retold (hclass : Identifier className.toList)
    (hsubroutine : Identifier subroutine.toList) (h : ∀ item ∈ table.items, Tellable item) :
    Says (retold className subroutine table.text)
      (table.items.map (Sentence.ofItem className subroutine)) := by
  have hlines : Text.lines (retold className subroutine table.text).toList =
      table.items.map (retoldItem className subroutine) := by
    rw [retold, String.toList_ofList, lines_text h, filterMap_retoldLine h]
    exact lines_ended_of_plain (List.forall_mem_map.mpr fun item hitem =>
      (h item hitem).plain_retoldItem hclass hsubroutine)
  rw [Says, hlines, List.forall₂_map_left_iff, List.forall₂_map_right_iff, List.forall₂_same]
  exact fun item hitem => (h item hitem).onLine_retoldItem hclass hsubroutine

theorem tableAt_items (className subroutine : String) (table : Table) :
    tableAt (table.items.map (Sentence.ofItem className subroutine)) =
      Session.final {} (table.items.map Item.command) := by
  have hcommands : ∀ item, (Sentence.ofItem className subroutine item).commands =
      [item.command] := fun item => by cases item <;> rfl
  rw [tableAt, List.flatMap_map]
  simp only [hcommands, ← List.map_eq_flatMap]

theorem openedClass?_items (className subroutine : String) (table : Table) :
    (table.items.map (Sentence.ofItem className subroutine)).filterMap Sentence.openedClass? =
      [className] := by
  obtain ⟨rest, hitems, hrest⟩ := table.exists_items
  have hnone : rest.filterMap (Sentence.openedClass? ∘ Sentence.ofItem className subroutine) =
      [] := by
    refine List.filterMap_eq_nil_iff.mpr fun item hitem => ?_
    cases item with
    | classScope => exact absurd rfl (hrest _ hitem)
    | subroutineScope | listed entry => rfl
  rw [hitems, List.filterMap_map, List.filterMap_cons, hnone]
  rfl

/-- Behind the line that opens the class, nothing that an item says can be refused. -/
theorem admitsAll_items (policy : UnknownNames) (className subroutine : String) (table : Table) :
    Progress.AdmitsAll policy {} (table.items.map (Sentence.ofItem className subroutine)) := by
  obtain ⟨rest, hitems, hrest⟩ := table.exists_items
  intro before sentence after hsplit
  rw [Progress.admits_heedAll_iff]
  rw [hitems, List.map_cons] at hsplit
  cases before with
  | nil =>
    obtain ⟨rfl, -⟩ := List.cons.inj hsplit
    exact List.not_mem_nil
  | cons first before =>
    obtain ⟨rfl, hrest'⟩ := List.cons.inj hsplit
    have hmem : sentence ∈ rest.map (Sentence.ofItem className subroutine) := by
      simp [hrest']
    obtain ⟨item, hitem, rfl⟩ := List.mem_map.mp hmem
    have hopened : ∃ name, .openClass name ∈ Sentence.openClass className :: before :=
      ⟨className, List.mem_cons_self⟩
    cases item with
    | classScope => exact absurd rfl (hrest _ hitem)
    | subroutineScope => exact hopened
    | listed entry => exact hopened

theorem classes_items (className subroutine : String) (table : Table) :
    (Progress.heedAll {} (table.items.map (Sentence.ofItem className subroutine))).report.classes =
      [(className, Session.final {} (table.items.map Item.command))] := by
  have hopened := openedClass?_items className subroutine table
  have hcurrent :=
    Progress.current_heedAll (table.items.map (Sentence.ofItem className subroutine))
  rw [classAt, hopened, tableAt_items] at hcurrent
  have hnames :=
    Progress.classes_heedAll (table.items.map (Sentence.ofItem className subroutine))
  rw [hopened] at hnames
  have hmem := Progress.mem_classes_of_current hcurrent
  obtain ⟨entry, hentry, -⟩ := List.map_eq_singleton_iff.mp hnames
  rw [hentry, List.mem_singleton] at hmem
  exact hmem ▸ hentry

end Retold

theorem tellable_of_report {policy : UnknownNames} {text : String} {report : Report}
    (h : (replay policy text).outcome = .ok report) {className : String} {table : Table}
    (hmem : (className, table) ∈ report.classes) :
    Identifier className.toList ∧ table.Indexed ∧ ∀ item ∈ table.items, Tellable item := by
  obtain ⟨sentences, hsaid, -, rfl⟩ := replay_ok.mp h
  obtain ⟨before, after, rfl, hclass, rfl⟩ := Progress.exists_tableAt_of_mem hmem
  have hopened := mem_openedClasses_iff.mp (List.mem_of_getLast? hclass)
  refine ⟨hsaid.identifier (List.mem_append_left _ hopened) List.mem_cons_self,
    Session.indexed_final .fresh _, fun item hitem => ?_⟩
  cases item with
  | classScope => exact .classScope
  | subroutineScope => exact .subroutineScope
  | listed entry =>
    obtain ⟨kind, hentry⟩ := Table.exists_mem_entries_of_mem_items hitem
    rw [entries_tableAt, List.mem_mapIdx] at hentry
    obtain ⟨i, hi, rfl⟩ := hentry
    exact .listed (hsaid.spelled_of_visible (List.getElem_mem hi))

/-- A table that a trace leaves is told by its text: the trace that is read off the text
is followed, with unknown names refused or not, and leaves the same table. -/
theorem replay_retold {policy : UnknownNames} {text : String} {report : Report}
    (h : (replay policy text).outcome = .ok report) {className : String} {table : Table}
    (hmem : (className, table) ∈ report.classes) {subroutine : String}
    (hsubroutine : Identifier subroutine.toList) (other : UnknownNames) :
    ∃ again same, (replay other (retold className subroutine table.text)).outcome = .ok again ∧
      again.classes = [(className, same)] ∧ same.inSubroutine = table.inSubroutine ∧
      (∀ kind, same.entries kind = table.entries kind) ∧ same.text = table.text := by
  obtain ⟨hclass, hindexed, htellable⟩ := tellable_of_report h hmem
  have hagree := Session.agree_items hindexed
  refine ⟨_, _, replay_ok.mpr ⟨_, says_retold hclass hsubroutine htellable,
    admitsAll_items other className subroutine table, rfl⟩,
    classes_items className subroutine table, hagree.inSubroutine, hagree.entries, hagree.text⟩

/-- Types of odd looks, declared in an odd order and outside of any subroutine. -/
def tangled : String :=
  "class A\narg /: x\nstatic (none) y,x\nclass B"

def tangledText : String :=
  "class scope:\n    STATIC 0 y: (none)\n    STATIC 1 x: (none)\n" ++
    "subroutine scope:\n    ARG 0 x: /:\n"

theorem replay_retold_tangled :
    retold "A" "g" tangledText =
        "class A\nSTATIC (none) y\nSTATIC (none) x\nsubroutine g\nARG /: x\n" ∧
      ∃ again same, (replay .reject (retold "A" "g" tangledText)).outcome = .ok again ∧
        again.classes = [("A", same)] ∧ same.text = tangledText := by
  have htexts : (replay .aliasField tangled).outcome.toOption.map (fun report =>
      report.classes.map fun named => (named.1, named.2.text)) =
      some [("A", tangledText), ("B", "class scope:\nsubroutine scope: (none)\n")] := by decide +kernel
  obtain ⟨report, h, hclasses⟩ := exists_report_of_map htexts
  have hmem : ("A", tangledText) ∈ report.classes.map fun named => (named.1, named.2.text) := by
    rw [hclasses]
    exact List.mem_cons_self
  obtain ⟨⟨name, table⟩, htable, hnamed⟩ := List.mem_map.mp hmem
  obtain ⟨rfl, htext⟩ := Prod.mk.inj hnamed
  have hg : Identifier "g".toList := Text.isIdentifier_iff.mp (by decide)
  obtain ⟨again, same, hok, hagain, -, -, hsame⟩ := replay_retold h htable hg .reject
  rw [htext] at hok hsame
  exact ⟨by decide +kernel, again, same, hok, hagain, hsame⟩

end JackScopes.Trace
