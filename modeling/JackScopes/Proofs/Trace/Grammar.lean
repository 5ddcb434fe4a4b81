import JackScopes.Proofs.Text.Words
import JackScopes.Trace.Directive

/-!
# The grammar of traces

What the lines of a trace can say, and all the ways to write it. Reading a line
finds exactly what the grammar allows: `ofLine?` and the functions on statements
succeed on the lines that are written by its rules, and on no others.
-/

namespace JackScopes.Trace

open Text (Blanks Gap Word Tight Identifier)

/-- The word for a kind. Its letters may be of either case. -/
def keyword : Kind → List Char
  | .static => "static".toList
  | .field => "field".toList
  | .arg => "arg".toList
  | .var => "var".toList

inductive Sentence
  | blank
  | openClass (name : String)
  | startSubroutine (name : String)
  | resolve (name : String)
  | declare (kind : Kind) (type : String) (names : List String)
  deriving DecidableEq

def Labelled (label name : String) (cs : List Char) : Prop :=
  ∃ gap, Gap gap ∧ Identifier name.toList ∧ cs = label.toList ++ gap ++ name.toList

/-- Identifiers with commas between them, and blanks around the commas. -/
inductive NameList : List String → List Char → Prop
  | single {name : String} : Identifier name.toList → NameList [name] name.toList
  | cons {name : String} {left right : List Char} {names : List String} {rest : List Char} :
      Identifier name.toList → Blanks left → Blanks right → NameList names rest →
      NameList (name :: names) (name.toList ++ left ++ ',' :: (right ++ rest))

/-- A declaration as it can be written, but for a comment and blanks around it, whatever
is written where its names should stand. -/
structure Declares (kind : Kind) (type : String) (list cs : List Char) : Prop where
  word : Word type.toList
  tight : Tight list
  written : ∃ word gap space, word.map Char.toLower = keyword kind ∧ Gap gap ∧ Blanks space ∧
    (space = [] → list = []) ∧ cs = word ++ gap ++ (type.toList ++ (space ++ list))

namespace Sentence

/-- How a sentence can be written, but for a comment and blanks around it. -/
inductive Written : Sentence → List Char → Prop
  | blank : Written .blank []
  | openClass {name : String} {cs : List Char} :
      Labelled "class" name cs → Written (.openClass name) cs
  | startSubroutine {name : String} {cs : List Char} :
      Labelled "subroutine" name cs → Written (.startSubroutine name) cs
  | resolve {name : String} {cs : List Char} :
      Labelled "resolve" name cs → Written (.resolve name) cs
  | declare {kind : Kind} {type : String} {names : List String}
      {word gap space list : List Char} :
      word.map Char.toLower = keyword kind → Gap gap → Word type.toList → Gap space →
      NameList names list →
      Written (.declare kind type names) (word ++ gap ++ type.toList ++ space ++ list)

/-- A line says a sentence: so it is written, before the first pair of slashes and
within the blanks. -/
def OnLine (sentence : Sentence) (line : List Char) : Prop :=
  ∃ code content, Text.BeforeComment line code ∧ Text.Within code content ∧
    sentence.Written content

theorem onLine_iff {sentence : Sentence} {line : List Char} :
    sentence.OnLine line ↔ sentence.Written (Text.trim (Text.withoutComment line)) := by
  constructor
  · rintro ⟨code, content, hcode, hcontent, hw⟩
    rw [Text.beforeComment_iff] at hcode
    rw [Text.within_iff] at hcontent
    rwa [← hcode, ← hcontent]
  · intro hw
    exact ⟨_, _, Text.beforeComment_withoutComment line, Text.within_trim _, hw⟩

end Sentence

-- ---------------------------------------------------------------------------
-- Words for kinds
-- ---------------------------------------------------------------------------

theorem keyword_injective {k l : Kind} (h : keyword k = keyword l) : k = l := by
  cases k <;> cases l <;> first | rfl | exact absurd h (by decide)

theorem sameLetters_name_iff {kind : Kind} {word : String} :
    Text.sameLetters kind.name word = true ↔ word.toList.map Char.toLower = keyword kind := by
  have hname : kind.name.toList.map Char.toLower = keyword kind := by cases kind <;> decide
  rw [Text.sameLetters, hname, beq_iff_eq]
  exact eq_comm

theorem ofString?_eq_some_iff {word : String} {kind : Kind} :
    Kind.ofString? word = some kind ↔ word.toList.map Char.toLower = keyword kind := by
  have hsome {found : Kind} (h : Kind.ofString? word = some found) :
      word.toList.map Char.toLower = keyword found := by
    rw [Kind.ofString?] at h
    have hletters := List.find?_some h
    exact sameLetters_name_iff.mp hletters
  refine ⟨hsome, fun h => ?_⟩
  cases hf : Kind.ofString? word with
  | none =>
    have hnot := List.find?_eq_none.mp hf kind (Kind.mem_all kind)
    exact absurd (sameLetters_name_iff.mpr h) hnot
  | some other => rw [keyword_injective ((hsome hf).symm.trans h)]

theorem toLower_of_isBlank {c : Char} (h : Text.isBlank c = true) : c.toLower = c := by
  refine dif_neg ?_
  rintro ⟨hl, hr⟩
  change 65 ≤ c.toNat at hl
  change c.toNat ≤ 90 at hr
  simp [Text.isBlank] at h
  omega

theorem word_keyword (kind : Kind) : Word (keyword kind) := by
  cases kind <;> exact Text.word_of_all (by simp [keyword]) rfl

theorem word_of_keyword {word : List Char} {kind : Kind}
    (h : word.map Char.toLower = keyword kind) : Word word where
  nonempty := by
    rintro rfl
    cases kind <;> exact absurd h (by decide)
  solid c hc := by
    by_contra hb
    have hlower : c.toLower = c := toLower_of_isBlank (by simpa using hb)
    have hmem : c ∈ keyword kind := h ▸ List.mem_map.mpr ⟨c, hc, hlower⟩
    exact hb ((word_keyword kind).solid c hmem)

-- ---------------------------------------------------------------------------
-- Lists of names
-- ---------------------------------------------------------------------------

theorem namePieces_cons (left rest : List Char) (h : ',' ∉ left) :
    namePieces (left ++ ',' :: rest) = Text.trim left :: namePieces rest := by
  rw [namePieces, List.splitOn_append_cons_self_of_not_mem h]
  rfl

theorem namePieces_of_comma_not_mem {cs : List Char} (h : ',' ∉ cs) :
    namePieces cs = [Text.trim cs] := by
  rw [namePieces, List.splitOn_eq_singleton h]
  rfl

theorem comma_not_mem_of_blanks {cs : List Char} (h : Blanks cs) : ',' ∉ cs := fun hc =>
  absurd (h _ hc) (by decide)

theorem namePieces_append_left {left : List Char} (h : Blanks left) (cs : List Char) :
    namePieces (left ++ cs) = namePieces cs := by
  by_cases hc : ',' ∈ cs
  · obtain ⟨before, after, rfl, hb⟩ := List.eq_append_cons_of_mem hc
    have hl : ',' ∉ left ++ before := by simp [comma_not_mem_of_blanks h, hb]
    rw [← List.append_assoc, namePieces_cons _ _ hl, namePieces_cons _ _ hb,
      Text.trim_append_left h]
  · have hl : ',' ∉ left ++ cs := by simp [comma_not_mem_of_blanks h, hc]
    rw [namePieces_of_comma_not_mem hl, namePieces_of_comma_not_mem hc, Text.trim_append_left h]

theorem NameList.namePieces_eq {names : List String} {cs : List Char} (h : NameList names cs) :
    namePieces cs = names.map String.toList := by
  induction h with
  | single hn => rw [namePieces_of_comma_not_mem hn.comma_not_mem, hn.word.tight.trim_eq]; rfl
  | @cons name left right names rest hn hl hr _ ih =>
    have hc : ',' ∉ name.toList ++ left := by
      simp [hn.comma_not_mem, comma_not_mem_of_blanks hl]
    rw [namePieces_cons _ _ hc, Text.trim_append_right hl, hn.word.tight.trim_eq,
      namePieces_append_left hr, ih]
    rfl

theorem NameList.identifier {names : List String} {cs : List Char} (h : NameList names cs) :
    ∀ name ∈ names, Identifier name.toList := by
  induction h with
  | single hn => simpa using hn
  | cons hn _ _ _ ih =>
    intro other ho
    rcases List.mem_cons.mp ho with rfl | ho
    · exact hn
    · exact ih other ho

theorem NameList.ne_nil {names : List String} {cs : List Char} (h : NameList names cs) :
    cs ≠ [] := by
  cases h with
  | single hn => exact hn.word.nonempty
  | cons => simp

theorem NameList.tight {names : List String} {cs : List Char} (h : NameList names cs) :
    Tight cs := by
  induction h with
  | single hn => exact hn.word.tight
  | @cons name left right names rest hn _ _ hrest ih =>
    have := hn.word.tight.append ih hn.word.nonempty hrest.ne_nil (left ++ ',' :: right)
    simpa using this

/-- Where all pieces are identifiers, a list of names stands within the blanks. -/
theorem exists_nameList (cs : List Char) (h : ∀ piece ∈ namePieces cs, Identifier piece) :
    ∃ list, Text.Within cs list ∧ NameList ((namePieces cs).map String.ofList) list := by
  by_cases hc : ',' ∈ cs
  · obtain ⟨before, after, hcs, hb⟩ := List.eq_append_cons_of_mem hc
    have hshorter : after.length < cs.length := by
      rw [hcs, List.length_append, List.length_cons]
      omega
    rw [hcs, namePieces_cons _ _ hb] at h ⊢
    have hn : Identifier (String.ofList (Text.trim before)).toList := by
      simpa using h _ List.mem_cons_self
    obtain ⟨list, ⟨inner, right, hafter, hi, hr, -⟩, hlist⟩ :=
      exists_nameList after fun piece hp => h piece (List.mem_cons_of_mem _ hp)
    obtain ⟨left, space, hbefore, hl, hs, -⟩ := Text.within_trim before
    refine ⟨_, ⟨left, right, ?_, hl, hr, NameList.tight (.cons hn hs hi hlist)⟩,
      .cons hn hs hi hlist⟩
    conv => lhs; rw [hbefore, hafter]
    simp
  · rw [namePieces_of_comma_not_mem hc] at h ⊢
    have hn : Identifier (String.ofList (Text.trim cs)).toList := by simpa using h
    refine ⟨_, ?_, .single hn⟩
    rw [String.toList_ofList]
    exact Text.within_trim cs
termination_by cs.length

theorem nameList_iff {names : List String} {cs : List Char} :
    NameList names cs ↔
      Tight cs ∧ (∀ piece ∈ namePieces cs, Text.isIdentifier piece = true) ∧
        names = (namePieces cs).map String.ofList := by
  constructor
  · intro h
    refine ⟨h.tight, ?_, ?_⟩
    · intro piece hp
      rw [h.namePieces_eq] at hp
      obtain ⟨name, hn, rfl⟩ := List.mem_map.mp hp
      exact Text.isIdentifier_iff.mpr (h.identifier name hn)
    · simp [h.namePieces_eq, Function.comp_def]
  · rintro ⟨ht, hp, rfl⟩
    obtain ⟨list, hw, hl⟩ := exists_nameList cs fun piece h => Text.isIdentifier_iff.mp (hp piece h)
    rwa [← hw.trim_eq, ht.trim_eq] at hl

-- ---------------------------------------------------------------------------
-- Statements
-- ---------------------------------------------------------------------------

theorem ofLine?_eq_none_iff {line : List Char} :
    Statement.ofLine? line = none ↔ Sentence.blank.OnLine line := by
  rw [Sentence.onLine_iff, Statement.ofLine?]
  constructor
  · intro h
    split at h
    · next hc => exact hc ▸ .blank
    · cases h
  · generalize hc : Text.trim (Text.withoutComment line) = content
    intro h
    cases h
    simp

/-- A statement with a rest is a word, a gap and the rest. -/
theorem ofLine?_eq_some_iff {line rest : List Char} {word : String} (hrest : rest ≠ []) :
    Statement.ofLine? line = some ⟨word, rest⟩ ↔
      Word word.toList ∧ Tight rest ∧
        ∃ gap, Gap gap ∧ Text.trim (Text.withoutComment line) = word.toList ++ gap ++ rest := by
  have ht := Text.tight_trim (Text.withoutComment line)
  rw [Statement.ofLine?]
  generalize Text.trim (Text.withoutComment line) = content at ht ⊢
  constructor
  · intro h
    split at h
    · cases h
    · next hne =>
      simp only [Option.some.injEq, Statement.mk.injEq] at h
      obtain ⟨rfl, rfl⟩ := h
      obtain ⟨gap, hg, hsplit⟩ := Text.exists_gap ht hrest
      exact ⟨by simpa using Text.word_firstWord ht hne, Text.tight_trim _, gap, hg,
        by simpa using hsplit⟩
  · rintro ⟨hw, htr, gap, hg, rfl⟩
    have hne : word.toList ++ gap ++ rest ≠ [] := by simp [hw.nonempty]
    rw [if_neg hne, Text.firstWord_append hw hg, Text.afterWord_append hw hg, htr.trim_eq]
    simp

theorem labelled_iff {label name : String} {line : List Char} (hl : Word label.toList) :
    Labelled label name (Text.trim (Text.withoutComment line)) ↔
      Statement.ofLine? line = some ⟨label, name.toList⟩ ∧ Identifier name.toList := by
  constructor
  · rintro ⟨gap, hg, hn, hc⟩
    exact ⟨(ofLine?_eq_some_iff hn.word.nonempty).mpr ⟨hl, hn.word.tight, gap, hg, hc⟩, hn⟩
  · rintro ⟨hs, hn⟩
    obtain ⟨-, -, gap, hg, hc⟩ := (ofLine?_eq_some_iff hn.word.nonempty).mp hs
    exact ⟨gap, hg, hn, hc⟩

theorem identifier_ok {cs : List Char} {complaint : Complaint} {name : String} :
    identifier cs complaint = .ok name ↔ cs = name.toList ∧ Identifier name.toList := by
  rw [identifier, ← Text.isIdentifier_iff]
  split
  · next h =>
    simp only [Except.ok.injEq]
    constructor
    · rintro rfl
      simpa using h
    · rintro ⟨rfl, -⟩
      simp
  · next h =>
    simp only [reduceCtorEq, false_iff]
    rintro ⟨rfl, hn⟩
    exact h hn

-- ---------------------------------------------------------------------------
-- Sentences as statements
-- ---------------------------------------------------------------------------

theorem onLine_openClass_iff {name : String} {line : List Char} :
    (Sentence.openClass name).OnLine line ↔
      ∃ statement, Statement.ofLine? line = some statement ∧ statement.word = "class" ∧
        statement.className = .ok name := by
  have hw : ∀ cs, (Sentence.openClass name).Written cs ↔ Labelled "class" name cs := fun cs =>
    ⟨fun h => by cases h; assumption, .openClass⟩
  rw [Sentence.onLine_iff, hw, labelled_iff (Text.word_of_all (by simp) rfl)]
  constructor
  · rintro ⟨hs, hn⟩
    exact ⟨_, hs, rfl, identifier_ok.mpr ⟨rfl, hn⟩⟩
  · rintro ⟨⟨word, rest⟩, hs, rfl, hname⟩
    obtain ⟨rfl, hn⟩ := identifier_ok.mp hname
    exact ⟨hs, hn⟩

theorem map_ok {ε α β : Type} {f : α → β} {x : Except ε α} {b : β} :
    x.map f = .ok b ↔ ∃ a, x = .ok a ∧ f a = b := by
  cases x <;> simp [Except.map]

theorem declaration_ok {statement : Statement} {directive : Directive} :
    statement.declaration = .ok directive ↔
      ∃ kind, Kind.ofString? statement.word = some kind ∧ statement.rest ≠ [] ∧
        directive = .declare kind (String.ofList (Text.firstWord statement.rest))
          (Text.afterWord statement.rest) := by
  rw [Statement.declaration]
  cases Kind.ofString? statement.word with
  | none => simp
  | some kind =>
    by_cases hr : statement.rest = []
    · simp [hr]
    · simp [hr, eq_comm]

theorem word_of_ofString? {word : String} {kind : Kind} (h : Kind.ofString? word = some kind) :
    word ≠ "class" ∧ word ≠ "subroutine" ∧ word ≠ "resolve" := by
  rw [ofString?_eq_some_iff] at h
  refine ⟨?_, ?_, ?_⟩ <;> rintro rfl <;> cases kind <;> exact absurd h (by decide)

theorem directive_startSubroutine_iff {statement : Statement} {name : String} :
    statement.directive = .ok (.startSubroutine name) ↔
      statement.word = "subroutine" ∧ statement.rest = name.toList ∧ Identifier name.toList := by
  rw [Statement.directive]
  split
  · next hw => simp [map_ok, identifier_ok, hw]
  · next hw =>
    split
    · simp [map_ok, hw]
    · simp [declaration_ok, hw]

theorem directive_resolve_iff {statement : Statement} {name : String} :
    statement.directive = .ok (.resolve name) ↔
      statement.word = "resolve" ∧ statement.rest = name.toList ∧ Identifier name.toList := by
  rw [Statement.directive]
  split
  · next hw => simp [map_ok, hw]
  · split
    · next hw => simp [map_ok, identifier_ok, hw]
    · next hw => simp [declaration_ok, hw]

theorem directive_declare_iff {statement : Statement} {kind : Kind} {type : String}
    {list : List Char} :
    statement.directive = .ok (.declare kind type list) ↔
      Kind.ofString? statement.word = some kind ∧ statement.rest ≠ [] ∧
        Text.firstWord statement.rest = type.toList ∧ Text.afterWord statement.rest = list := by
  have hdecl : statement.declaration = .ok (.declare kind type list) ↔
      Kind.ofString? statement.word = some kind ∧ statement.rest ≠ [] ∧
        Text.firstWord statement.rest = type.toList ∧ Text.afterWord statement.rest = list := by
    rw [declaration_ok]
    constructor
    · rintro ⟨found, hk, hr, hd⟩
      cases hd
      exact ⟨hk, hr, by simp, rfl⟩
    · rintro ⟨hk, hr, ht, rfl⟩
      exact ⟨kind, hk, hr, by rw [ht, String.ofList_toList]⟩
  rw [← hdecl, Statement.directive]
  split
  · next hw =>
    have hnot : statement.declaration ≠ .ok (.declare kind type list) := fun hd =>
      (word_of_ofString? (hdecl.mp hd).1).2.1 hw
    simp [map_ok, hnot]
  · split
    · next hw =>
      have hnot : statement.declaration ≠ .ok (.declare kind type list) := fun hd =>
        (word_of_ofString? (hdecl.mp hd).1).2.2 hw
      simp [map_ok, hnot]
    · rfl

/-- A sentence of a label and a name, and the directive that asks for the same. -/
theorem onLine_directive_iff {sentence : Sentence} {directive : Directive} {label name : String}
    {line : List Char} (hlabel : label ≠ "class") (hword : Word label.toList)
    (hwritten : ∀ cs, sentence.Written cs ↔ Labelled label name cs)
    (hdirective : ∀ statement : Statement, statement.directive = .ok directive ↔
      statement.word = label ∧ statement.rest = name.toList ∧ Identifier name.toList) :
    sentence.OnLine line ↔
      ∃ statement, Statement.ofLine? line = some statement ∧ statement.word ≠ "class" ∧
        statement.directive = .ok directive := by
  rw [Sentence.onLine_iff, hwritten, labelled_iff hword]
  constructor
  · rintro ⟨hs, hn⟩
    exact ⟨_, hs, hlabel, (hdirective _).mpr ⟨rfl, rfl, hn⟩⟩
  · rintro ⟨⟨word, rest⟩, hs, -, hd⟩
    obtain ⟨rfl, rfl, hn⟩ := (hdirective _).mp hd
    exact ⟨hs, hn⟩

theorem onLine_startSubroutine_iff {name : String} {line : List Char} :
    (Sentence.startSubroutine name).OnLine line ↔
      ∃ statement, Statement.ofLine? line = some statement ∧ statement.word ≠ "class" ∧
        statement.directive = .ok (.startSubroutine name) := by
  refine onLine_directive_iff (by simp) (Text.word_of_all (by simp) rfl) (fun cs => ?_)
    fun statement => directive_startSubroutine_iff
  exact ⟨fun h => by cases h; assumption, .startSubroutine⟩

theorem onLine_resolve_iff {name : String} {line : List Char} :
    (Sentence.resolve name).OnLine line ↔
      ∃ statement, Statement.ofLine? line = some statement ∧ statement.word ≠ "class" ∧
        statement.directive = .ok (.resolve name) := by
  refine onLine_directive_iff (by simp) (Text.word_of_all (by simp) rfl) (fun cs => ?_)
    fun statement => directive_resolve_iff
  exact ⟨fun h => by cases h; assumption, .resolve⟩

theorem declares_iff {kind : Kind} {type : String} {list line : List Char} :
    Declares kind type list (Text.trim (Text.withoutComment line)) ↔
      ∃ statement, Statement.ofLine? line = some statement ∧
        statement.directive = .ok (.declare kind type list) := by
  have hcontent := Text.tight_trim (Text.withoutComment line)
  constructor
  · rintro ⟨ht, hl, word, gap, space, hword, hg, hs, hspace, hc⟩
    rw [hc] at hcontent
    have hrest : Tight (type.toList ++ (space ++ list)) := hcontent.of_append ht
    have hne : type.toList ++ (space ++ list) ≠ [] := by simp [ht.nonempty]
    refine ⟨⟨String.ofList word, type.toList ++ (space ++ list)⟩, ?_, ?_⟩
    · rw [ofLine?_eq_some_iff hne]
      exact ⟨by simpa using word_of_keyword hword, hrest, gap, hg, by simpa using hc⟩
    · refine directive_declare_iff.mpr ⟨ofString?_eq_some_iff.mpr (by simpa using hword), hne, ?_⟩
      by_cases hempty : space = []
      · simp [hempty, hspace hempty, ht.firstWord_eq, ht.afterWord_eq]
      · have hgap : Gap space := ⟨hempty, hs⟩
        rw [← List.append_assoc, Text.firstWord_append ht hgap, Text.afterWord_append ht hgap,
          hl.trim_eq]
        exact ⟨rfl, rfl⟩
  · rintro ⟨statement, hline, hd⟩
    obtain ⟨hkind, hrest, htype, hlist⟩ := directive_declare_iff.mp hd
    obtain ⟨-, hright, gap, hg, hc⟩ := (ofLine?_eq_some_iff hrest).mp hline
    obtain ⟨space, hs, hspace, hsplit⟩ := Text.exists_space hright
    rw [htype, hlist] at hsplit
    rw [hlist] at hspace
    refine ⟨htype ▸ Text.word_firstWord hright hrest, hlist ▸ Text.tight_trim _, _, gap, space,
      ofString?_eq_some_iff.mp hkind, hg, hs, hspace, ?_⟩
    rw [hc, hsplit, List.append_assoc type.toList]

theorem written_declare_iff {kind : Kind} {type : String} {names : List String} {cs : List Char} :
    (Sentence.declare kind type names).Written cs ↔
      ∃ list, Declares kind type list cs ∧ NameList names list := by
  constructor
  · intro h
    cases h with
    | @declare _ _ _ word gap space list hword hg ht hs hl =>
      exact ⟨list, ⟨ht, hl.tight, word, gap, space, hword, hg, hs.blanks,
        fun hempty => absurd hempty hs.nonempty, by simp⟩, hl⟩
  · rintro ⟨list, ⟨ht, -, word, gap, space, hword, hg, hs, hspace, rfl⟩, hl⟩
    have hgap : Gap space := ⟨mt hspace hl.ne_nil, hs⟩
    simpa using Sentence.Written.declare hword hg ht hgap hl

theorem onLine_declare_iff {kind : Kind} {type : String} {names : List String}
    {line : List Char} :
    (Sentence.declare kind type names).OnLine line ↔
      ∃ statement list, Statement.ofLine? line = some statement ∧ statement.word ≠ "class" ∧
        statement.directive = .ok (.declare kind type list) ∧
        (∀ piece ∈ namePieces list, Text.isIdentifier piece = true) ∧
        names = (namePieces list).map String.ofList := by
  rw [Sentence.onLine_iff, written_declare_iff]
  constructor
  · rintro ⟨list, hdeclares, hl⟩
    obtain ⟨statement, hline, hd⟩ := declares_iff.mp hdeclares
    have hkind := (directive_declare_iff.mp hd).1
    exact ⟨statement, list, hline, (word_of_ofString? hkind).1, hd, (nameList_iff.mp hl).2⟩
  · rintro ⟨statement, list, hline, -, hd, hnames⟩
    have hdeclares := declares_iff.mpr ⟨statement, hline, hd⟩
    exact ⟨list, hdeclares, nameList_iff.mpr ⟨hdeclares.tight, hnames⟩⟩

-- ---------------------------------------------------------------------------
-- Reading a line
-- ---------------------------------------------------------------------------

namespace Sentence

def ofDirective? : Directive → Option Sentence
  | .startSubroutine name => some (.startSubroutine name)
  | .resolve name => some (.resolve name)
  | .declare kind type list =>
    if ∀ piece ∈ namePieces list, Text.isIdentifier piece = true then
      some (.declare kind type ((namePieces list).map String.ofList))
    else none

def ofStatement? (statement : Statement) : Option Sentence :=
  if statement.word = "class" then statement.className.toOption.map .openClass
  else statement.directive.toOption.bind ofDirective?

def ofLine? (line : List Char) : Option Sentence :=
  match Statement.ofLine? line with
  | none => some .blank
  | some statement => ofStatement? statement

theorem ofStatement?_eq_some {statement : Statement} {line : List Char} {sentence : Sentence}
    (hline : Statement.ofLine? line = some statement)
    (h : ofStatement? statement = some sentence) : sentence.OnLine line := by
  rw [ofStatement?] at h
  split at h
  · next hw =>
    cases hn : statement.className with
    | error complaint => simp [hn, Except.toOption] at h
    | ok name =>
      simp only [hn, Except.toOption, Option.map_some, Option.some.injEq] at h
      exact h ▸ onLine_openClass_iff.mpr ⟨statement, hline, hw, hn⟩
  · next hw =>
    cases hd : statement.directive with
    | error complaint => simp [hd, Except.toOption] at h
    | ok directive =>
      simp only [hd, Except.toOption, Option.bind_some] at h
      cases directive with
      | startSubroutine name =>
        cases h
        exact onLine_startSubroutine_iff.mpr ⟨statement, hline, hw, hd⟩
      | resolve name =>
        cases h
        exact onLine_resolve_iff.mpr ⟨statement, hline, hw, hd⟩
      | declare kind type list =>
        rw [ofDirective?] at h
        split at h
        · next hp =>
          cases h
          exact onLine_declare_iff.mpr ⟨statement, list, hline, hw, hd, hp, rfl⟩
        · cases h

theorem ofLine?_of_onLine {sentence : Sentence} {line : List Char} (h : sentence.OnLine line) :
    ofLine? line = some sentence := by
  cases sentence with
  | blank => simp [ofLine?, ofLine?_eq_none_iff.mpr h]
  | openClass name =>
    obtain ⟨statement, hline, hw, hn⟩ := onLine_openClass_iff.mp h
    simp [ofLine?, hline, ofStatement?, hw, hn, Except.toOption]
  | startSubroutine name =>
    obtain ⟨statement, hline, hw, hd⟩ := onLine_startSubroutine_iff.mp h
    simp [ofLine?, hline, ofStatement?, hw, hd, Except.toOption, ofDirective?]
  | resolve name =>
    obtain ⟨statement, hline, hw, hd⟩ := onLine_resolve_iff.mp h
    simp [ofLine?, hline, ofStatement?, hw, hd, Except.toOption, ofDirective?]
  | declare kind type names =>
    obtain ⟨statement, list, hline, hw, hd, hp, rfl⟩ := onLine_declare_iff.mp h
    simp only [ofLine?, hline, ofStatement?, hw, hd, Except.toOption, ↓reduceIte,
      Option.bind_some]
    exact if_pos hp

/-- A line says what is read from it, and nothing else. -/
theorem onLine_iff_ofLine? {sentence : Sentence} {line : List Char} :
    sentence.OnLine line ↔ ofLine? line = some sentence := by
  refine ⟨ofLine?_of_onLine, fun h => ?_⟩
  rw [ofLine?] at h
  split at h
  · next hline =>
    cases h
    exact ofLine?_eq_none_iff.mp hline
  · next statement hline => exact ofStatement?_eq_some hline h

theorem OnLine.unique {sentence other : Sentence} {line : List Char} (h : sentence.OnLine line)
    (ho : other.OnLine line) : sentence = other := by
  rw [onLine_iff_ofLine?] at h ho
  exact Option.some.inj (h.symm.trans ho)

end Sentence

end JackScopes.Trace
