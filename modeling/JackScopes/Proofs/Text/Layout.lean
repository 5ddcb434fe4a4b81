import JackScopes.Proofs.Text.Lines
import JackScopes.Proofs.Text.Words

/-!
# The layout of a text

Blanks around a line and a comment behind it do not change what the line holds, and
neither does the way it is ended. So a text whose lines are laid out in another way has
lines of the same content.
-/

namespace JackScopes.Text

def content (line : List Char) : List Char :=
  trim (withoutComment line)

inductive Ending : List Char → Prop
  | newline : Ending ['\n']
  | returned : Ending ['\r', '\n']

/-- A line of a text: what stands above it, the line, and its ending with all below. The
last line may have no ending. -/
structure AtLine (above line rest : List Char) : Prop where
  above : Finished above
  line : '\n' ∉ line
  rest : rest = [] ∨ ∃ ending below, Ending ending ∧ rest = ending ++ below

/-- Nothing is on the line but blanks and perhaps a comment. -/
def Idle (line : List Char) : Prop :=
  '\n' ∉ line ∧ ∃ left, Blanks left ∧ (line = left ∨ ∃ comment, line = left ++ '/' :: '/' :: comment)

-- ---------------------------------------------------------------------------
-- What a line holds
-- ---------------------------------------------------------------------------

theorem withoutComment_cons {c : Char} {cs : List Char} (h : ¬ (c = '/' ∧ cs.head? = some '/')) :
    withoutComment (c :: cs) = c :: withoutComment cs := by
  rw [withoutComment]
  rintro rest rfl rfl
  exact h ⟨rfl, rfl⟩

theorem withoutComment_append_left {left : List Char} (h : '/' ∉ left) (cs : List Char) :
    withoutComment (left ++ cs) = left ++ withoutComment cs := by
  induction left with
  | nil => rfl
  | cons c left ih =>
    have hc : c ≠ '/' := fun hc => h (by simp [hc])
    rw [List.cons_append, withoutComment_cons fun hs => hc hs.1,
      ih fun hmem => h (List.mem_cons_of_mem _ hmem), List.cons_append]

theorem head?_of_withoutComment {line code : List Char} {c : Char}
    (h : withoutComment line = c :: code) : line.head? = some c := by
  fun_cases withoutComment line with
  | case1 | case2 rest => simp [withoutComment] at h
  | case3 d cs hc =>
    rw [withoutComment] at h
    · rw [List.head?_cons, (List.cons.inj h).1]
    · exact hc

theorem not_infix_withoutComment (line : List Char) : ¬ ['/', '/'] <:+: withoutComment line := by
  fun_induction withoutComment line with
  | case1 | case2 rest => simp
  | case3 c cs hc ih =>
    rw [List.infix_cons_iff, not_or]
    refine ⟨?_, ih⟩
    rintro ⟨rest, hrest⟩
    obtain ⟨rfl, hcode⟩ := List.cons.inj hrest
    obtain ⟨after, rfl⟩ := List.head?_eq_some_iff.mp (head?_of_withoutComment hcode.symm)
    exact hc after rfl rfl

theorem withoutComment_eq_self_iff {line : List Char} :
    withoutComment line = line ↔ ¬ ['/', '/'] <:+: line := by
  refine ⟨fun h => h ▸ not_infix_withoutComment line, fun h => ?_⟩
  induction line with
  | nil => rfl
  | cons c cs ih =>
    rw [List.infix_cons_iff, not_or] at h
    have hcons : ¬ (c = '/' ∧ cs.head? = some '/') := by
      rintro ⟨rfl, hslash⟩
      obtain ⟨rest, rfl⟩ := List.head?_eq_some_iff.mp hslash
      exact h.1 ⟨rest, rfl⟩
    rw [withoutComment_cons hcons, ih h.2]

/-- What is put behind a line is in its comment, or else the line has none. -/
theorem withoutComment_append {right : List Char} (h : right.head? ≠ some '/')
    (line : List Char) :
    withoutComment (line ++ right) =
      if withoutComment line = line then line ++ withoutComment right else withoutComment line := by
  fun_induction withoutComment line with
  | case1 => rfl
  | case2 rest => rfl
  | case3 c cs hc ih =>
    have hcons : withoutComment (c :: (cs ++ right)) = c :: withoutComment (cs ++ right) := by
      apply withoutComment_cons
      rintro ⟨rfl, hslash⟩
      cases cs with
      | nil => exact h hslash
      | cons d ds =>
        simp only [List.cons_append, List.head?_cons, Option.some.injEq] at hslash
        exact hc ds rfl (by rw [hslash])
    rw [List.cons_append, hcons, ih]
    by_cases hall : withoutComment cs = cs <;> simp [hall]

theorem slash_not_mem_of_blanks {cs : List Char} (h : Blanks cs) : '/' ∉ cs := fun hc =>
  absurd (h _ hc) (by decide)

theorem content_append_left {left : List Char} (h : Blanks left) (line : List Char) :
    content (left ++ line) = content line := by
  rw [content, withoutComment_append_left (slash_not_mem_of_blanks h), trim_append_left h, content]

theorem content_append {right : List Char} (hhead : right.head? ≠ some '/')
    (hright : Blanks (withoutComment right)) (line : List Char) :
    content (line ++ right) = content line := by
  rw [content, withoutComment_append hhead, content]
  split
  · next hall => rw [trim_append_right hright, hall]
  · rfl

theorem blanks_return : Blanks ['\r'] := by
  simp [Blanks, isBlank]

theorem head?_ne_slash_of_blanks {cs : List Char} (h : Blanks cs) : cs.head? ≠ some '/' :=
  fun hs => slash_not_mem_of_blanks h (List.mem_of_mem_head? hs)

theorem withoutComment_of_slash_not_mem {cs : List Char} (h : '/' ∉ cs) :
    withoutComment cs = cs := by
  simpa [withoutComment] using withoutComment_append_left h []

theorem withoutComment_of_blanks {cs : List Char} (h : Blanks cs) : withoutComment cs = cs :=
  withoutComment_of_slash_not_mem (slash_not_mem_of_blanks h)

theorem content_append_right {right : List Char} (h : Blanks right) (line : List Char) :
    content (line ++ right) = content line :=
  content_append (head?_ne_slash_of_blanks h) (by rwa [withoutComment_of_blanks h]) line

theorem content_append_comment {c : Char} (hc : isBlank c = true) (comment line : List Char) :
    content (line ++ c :: '/' :: '/' :: comment) = content line := by
  have hblanks : Blanks [c] := by simpa [Blanks] using hc
  have hcode : withoutComment ([c] ++ '/' :: '/' :: comment) = [c] := by
    rw [withoutComment_append_left (slash_not_mem_of_blanks hblanks)]
    simp [withoutComment]
  have hhead : ([c] ++ '/' :: '/' :: comment).head? ≠ some '/' := by
    simpa using head?_ne_slash_of_blanks hblanks
  exact content_append hhead (by rwa [hcode]) line

theorem Idle.content_eq {line : List Char} (h : Idle line) : content line = [] := by
  obtain ⟨-, left, hleft, rfl | ⟨comment, rfl⟩⟩ := h
  · exact content_append_right hleft []
  · rw [content_append_left hleft]
    rfl

-- ---------------------------------------------------------------------------
-- A line and those below it
-- ---------------------------------------------------------------------------

theorem lines_last {line : List Char} (h : '\n' ∉ line) (hne : line ≠ []) :
    lines line = [line] := by
  induction line with
  | nil => exact absurd rfl hne
  | cons c cs ih =>
    have hc : c ≠ '\n' := fun hc => h (by simp [hc])
    have hcs : '\n' ∉ cs := fun hmem => h (List.mem_cons_of_mem _ hmem)
    have hhead : ¬ (c = '\r' ∧ cs.head? = some '\n') := fun hr =>
      hcs (List.mem_of_mem_head? hr.2)
    rw [lines_cons hc hhead]
    by_cases hempty : cs = []
    · rw [hempty]
      rfl
    · rw [ih hcs hempty]
      rfl

/-- The ending of a line takes in a carriage return, and nothing else of it. -/
theorem exists_lines_newline {line : List Char} (h : '\n' ∉ line) (below : List Char) :
    ∃ first, lines (line ++ '\n' :: below) = first :: lines below ∧
      (line = first ∨ line = first ++ ['\r']) := by
  induction line with
  | nil => exact ⟨[], lines_newline below, .inl rfl⟩
  | cons c cs ih =>
    have hc : c ≠ '\n' := fun hc => h (by simp [hc])
    have hcs : '\n' ∉ cs := fun hmem => h (List.mem_cons_of_mem _ hmem)
    obtain ⟨first, hlines, hfirst⟩ := ih hcs
    by_cases hr : c = '\r' ∧ cs = []
    · obtain ⟨rfl, rfl⟩ := hr
      exact ⟨[], (lines_return rfl).trans (lines_newline below), .inr rfl⟩
    · have hhead : ¬ (c = '\r' ∧ (cs ++ '\n' :: below).head? = some '\n') := by
        rintro ⟨rfl, hhead⟩
        cases cs with
        | nil => exact hr ⟨rfl, rfl⟩
        | cons d ds => exact hcs (List.mem_of_mem_head? (by simpa using hhead))
      refine ⟨c :: first, ?_, ?_⟩
      · rw [List.cons_append, lines_cons hc hhead, hlines]
        rfl
      · rcases hfirst with rfl | rfl
        · exact .inl rfl
        · exact .inr rfl

theorem eq_of_mem_lines {line l : List Char} (h : '\n' ∉ line) (hl : l ∈ lines line) :
    l = line := by
  by_cases hne : line = []
  · simp [hne, lines] at hl
  · rwa [lines_last h hne, List.mem_singleton] at hl

/-- A line that is ended is a line of the text, but for what its ending takes in. -/
theorem exists_lines_ending {line ending : List Char} (h : '\n' ∉ line) (hending : Ending ending)
    (below : List Char) :
    ∃ first, lines (line ++ (ending ++ below)) = first :: lines below ∧
      content first = content line := by
  have hfirst {line first : List Char} (hf : line = first ∨ line = first ++ ['\r']) :
      content first = content line := by
    rcases hf with rfl | rfl
    · rfl
    · exact (content_append_right blanks_return first).symm
  cases hending with
  | newline =>
    obtain ⟨first, hlines, hf⟩ := exists_lines_newline h below
    exact ⟨first, hlines, hfirst hf⟩
  | returned =>
    -- the carriage return counts as part of the line, as far as its content goes
    have hline : '\n' ∉ line ++ ['\r'] := by simp [h]
    obtain ⟨first, hlines, hf⟩ := exists_lines_newline hline below
    exact ⟨first, by simpa using hlines,
      (hfirst hf).trans (content_append_right blanks_return line)⟩

-- ---------------------------------------------------------------------------
-- Rows of lines
-- ---------------------------------------------------------------------------

/-- Lines of the same content one by one, and lines without content behind them. -/
inductive Respaced : List (List Char) → List (List Char) → Prop
  | spare {others : List (List Char)} :
      (∀ other ∈ others, content other = []) → Respaced [] others
  | line {line other : List Char} {lines others : List (List Char)} :
      content other = content line → Respaced lines others →
      Respaced (line :: lines) (other :: others)

theorem Respaced.refl (ls : List (List Char)) : Respaced ls ls := by
  induction ls with
  | nil => exact .spare (by simp)
  | cons l ls ih => exact .line rfl ih

theorem Respaced.append_left (above : List (List Char)) {ls others : List (List Char)}
    (h : Respaced ls others) : Respaced (above ++ ls) (above ++ others) := by
  induction above with
  | nil => exact h
  | cons l above ih => exact .line rfl ih

theorem Respaced.append_spare {ls others spares : List (List Char)} (h : Respaced ls others)
    (hspare : ∀ l ∈ spares, content l = []) : Respaced ls (others ++ spares) := by
  induction h with
  | spare hothers =>
    refine .spare fun l hl => ?_
    rcases List.mem_append.mp hl with hl | hl
    · exact hothers l hl
    · exact hspare l hl
  | line hcontent _ ih => exact .line hcontent ih

theorem respaced_last {line other : List Char} (hl : '\n' ∉ line) (ho : '\n' ∉ other)
    (h : content other = content line) (hkeeps : line ≠ [] → other ≠ []) :
    Respaced (lines line) (lines other) := by
  by_cases hline : line = []
  · subst hline
    refine .spare fun l hmem => ?_
    rw [eq_of_mem_lines ho hmem, h]
    rfl
  · rw [lines_last hl hline, lines_last ho (hkeeps hline)]
    exact .line h (.spare (by simp))

/-- One line laid out in another way leaves the others as they are. -/
theorem AtLine.respaced {above line rest other : List Char} (h : AtLine above line rest)
    (ho : '\n' ∉ other) (hcontent : content other = content line)
    (hkeeps : line ≠ [] → other ≠ []) :
    Respaced (lines (above ++ line ++ rest)) (lines (above ++ other ++ rest)) := by
  rw [List.append_assoc, List.append_assoc, lines_append h.above, lines_append h.above]
  apply Respaced.append_left
  obtain rfl | ⟨ending, below, hending, rfl⟩ := h.rest
  · rw [List.append_nil, List.append_nil]
    exact respaced_last h.line ho hcontent hkeeps
  · obtain ⟨first, hlines, hfirst⟩ := exists_lines_ending h.line hending below
    obtain ⟨second, hothers, hsecond⟩ := exists_lines_ending ho hending below
    rw [hlines, hothers]
    exact .line (by rw [hsecond, hcontent, hfirst]) (.refl _)

theorem exists_last_line (text : List Char) :
    ∃ above line, text = above ++ line ∧ Finished above ∧ '\n' ∉ line := by
  refine ⟨text.rdropWhile (· ≠ '\n'), text.rtakeWhile (· ≠ '\n'),
    (List.rdropWhile_append_rtakeWhile ..).symm, ?_, fun hmem => ?_⟩
  · by_cases hempty : text.rdropWhile (· ≠ '\n') = []
    · exact .inl hempty
    · have hlast := List.rdropWhile_last_not (· ≠ '\n') text hempty
      refine .inr ?_
      rw [List.getLast?_eq_getLast_of_ne_nil hempty]
      simpa using hlast
  · simpa using List.mem_rtakeWhile_imp hmem

/-- To end the last line of a text, even if it is ended, makes no line of content. -/
theorem respaced_ended (text : List Char) {ending : List Char} (hending : Ending ending) :
    Respaced (lines text) (lines (text ++ ending)) := by
  obtain ⟨above, line, rfl, habove, hline⟩ := exists_last_line text
  rw [List.append_assoc, lines_append habove, lines_append habove]
  apply Respaced.append_left
  obtain ⟨first, hlines, hfirst⟩ := exists_lines_ending hline hending []
  rw [List.append_nil] at hlines
  rw [hlines]
  by_cases hempty : line = []
  · subst hempty
    have hspare : content first = [] := hfirst
    exact .spare (by simpa [lines] using hspare)
  · rw [lines_last hline hempty]
    exact .line hfirst (.spare (by simp [lines]))

-- ---------------------------------------------------------------------------
-- Edits
-- ---------------------------------------------------------------------------

/-- An edit of the layout, with the number of lines above it if it inserts a line. -/
inductive Edit : List Char → List Char → Option Nat → Prop
  | insert {above line ending below : List Char} :
      Finished above → Idle line → Ending ending →
      Edit (above ++ below) (above ++ line ++ ending ++ below) (some (lines above).length)
  /-- The line before the new one has to be ended, if it is not. -/
  | insertLast {text ending line : List Char} :
      (Finished text ∧ ending = [] ∨ ¬ Finished text ∧ Ending ending) → Idle line →
      Edit text (text ++ ending ++ line) (some (lines text).length)
  | indent {above left line rest : List Char} :
      AtLine above line rest → Blanks left → '\n' ∉ left →
      Edit (above ++ line ++ rest) (above ++ (left ++ line) ++ rest) none
  | trail {above line right rest : List Char} :
      AtLine above line rest → Blanks right → '\n' ∉ right →
      Edit (above ++ line ++ rest) (above ++ (line ++ right) ++ rest) none
  | comment {above line comment rest : List Char} {c : Char} :
      AtLine above line rest → isBlank c = true → c ≠ '\n' → '\n' ∉ comment →
      Edit (above ++ line ++ rest) (above ++ (line ++ c :: '/' :: '/' :: comment) ++ rest) none
  | returned {above line below : List Char} :
      AtLine above line ('\n' :: below) →
      Edit (above ++ line ++ '\n' :: below) (above ++ line ++ '\r' :: '\n' :: below) none

/-- A text laid out in another way, by any number of edits. Of the lines that were
inserted, so many as told stand before the line of a number. -/
inductive Relaid : List Char → List Char → (Nat → Nat) → Prop
  | same {text : List Char} : Relaid text text fun _ => 0
  | edit {text middle other : List Char} {inserted : Nat → Nat} {place : Option Nat} :
      Relaid text middle inserted → Edit middle other place →
      Relaid text other fun n =>
        inserted n + if ∃ above ∈ place, above < n + inserted n then 1 else 0

theorem lines_of_inserted {above line ending : List Char} (habove : Finished above)
    (hline : Idle line) (hending : Ending ending) (below : List Char) :
    ∃ first, lines (above ++ line ++ ending ++ below) = lines above ++ first :: lines below ∧
      content first = [] := by
  obtain ⟨first, hlines, hfirst⟩ := exists_lines_ending hline.1 hending below
  refine ⟨first, ?_, hfirst.trans hline.content_eq⟩
  rw [List.append_assoc, List.append_assoc, lines_append habove, hlines]

theorem respaced_insertLast {text ending line : List Char}
    (hending : Finished text ∧ ending = [] ∨ ¬ Finished text ∧ Ending ending)
    (hline : Idle line) : Respaced (lines text) (lines (text ++ ending ++ line)) := by
  have hspare : ∀ l ∈ lines line, content l = [] := fun l hl => by
    rw [eq_of_mem_lines hline.1 hl, hline.content_eq]
  rcases hending with ⟨hfinished, rfl⟩ | ⟨-, hending⟩
  · rw [List.append_nil, lines_append hfinished]
    exact (Respaced.refl _).append_spare hspare
  · have hfinished : Finished (text ++ ending) := by cases hending <;> exact .inr (by simp)
    rw [lines_append hfinished]
    exact (respaced_ended text hending).append_spare hspare

/-- An edit leaves the lines as they are, or puts one without content between them. -/
theorem Edit.rows {text other : List Char} {place : Option Nat} (h : Edit text other place) :
    ((∀ above ∈ place, (lines text).length ≤ above) ∧ Respaced (lines text) (lines other)) ∨
      ∃ above below line, place = some above.length ∧ lines text = above ++ below ∧
        lines other = above ++ line :: below ∧ content line = [] := by
  cases h with
  | @insert above line ending below habove hline hending =>
    obtain ⟨first, hlines, hfirst⟩ := lines_of_inserted habove hline hending below
    exact .inr ⟨_, _, first, rfl, lines_append habove below, hlines, hfirst⟩
  | insertLast hending hline => exact .inl ⟨by simp, respaced_insertLast hending hline⟩
  | @indent above left line rest hat hleft hnewline =>
    refine .inl ⟨by simp, hat.respaced ?_ (content_append_left hleft line) ?_⟩
    · simp [hnewline, hat.line]
    · simp +contextual
  | @trail above line right rest hat hright hnewline =>
    refine .inl ⟨by simp, hat.respaced ?_ (content_append_right hright line) ?_⟩
    · simp [hnewline, hat.line]
    · simp +contextual
  | @comment above line comment rest c hat hblank hc hnewline =>
    refine .inl ⟨by simp, hat.respaced ?_ (content_append_comment hblank comment line) ?_⟩
    · simp [hnewline, hat.line, Ne.symm hc]
    · simp
  | @returned above line below hat =>
    have hother : '\n' ∉ line ++ ['\r'] := by simp [hat.line]
    have hrows := hat.respaced hother (content_append_right blanks_return line) (by simp)
    exact .inl ⟨by simp, by simpa using hrows⟩

end JackScopes.Text
