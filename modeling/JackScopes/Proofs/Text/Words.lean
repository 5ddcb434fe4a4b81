import JackScopes.Text.Blank
import JackScopes.Text.Letters
import JackScopes.Text.Lines
import Mathlib.Data.List.DropRight

/-!
# Words and gaps

What the functions on lines do, said by what their results look like: a line up to
its comment, a text without the blanks around it, and a text as a word, a gap and a
rest. Each function gives the one result of its description.
-/

namespace JackScopes.Text

def Blanks (cs : List Char) : Prop :=
  ∀ c ∈ cs, isBlank c = true

structure Gap (cs : List Char) : Prop where
  nonempty : cs ≠ []
  blanks : Blanks cs

structure Word (cs : List Char) : Prop where
  nonempty : cs ≠ []
  solid : ∀ c ∈ cs, isBlank c = false

structure Tight (cs : List Char) : Prop where
  head : ∀ c ∈ cs.head?, isBlank c = false
  last : ∀ c ∈ cs.getLast?, isBlank c = false

/-- The inner text is the outer one without the blanks around it. -/
def Within (outer inner : List Char) : Prop :=
  ∃ left right, outer = left ++ inner ++ right ∧ Blanks left ∧ Blanks right ∧ Tight inner

/-- The code is what stands on a line before its first pair of slashes. -/
def BeforeComment (line code : List Char) : Prop :=
  ∃ n, code = line.take n ∧ (∀ i < n, ¬ ['/', '/'] <+: line.drop i) ∧
    (['/', '/'] <+: line.drop n ∨ line.length ≤ n)

def IsLetter (c : Char) : Prop :=
  ('A' ≤ c ∧ c ≤ 'Z') ∨ ('a' ≤ c ∧ c ≤ 'z') ∨ c = '_'

/-- ASCII letters, digits and underscores, the first of them no digit. -/
def Identifier (cs : List Char) : Prop :=
  ∃ c rest, cs = c :: rest ∧ IsLetter c ∧ ∀ d ∈ rest, IsLetter d ∨ ('0' ≤ d ∧ d ≤ '9')

-- ---------------------------------------------------------------------------
-- Comments
-- ---------------------------------------------------------------------------

theorem beforeComment_withoutComment (line : List Char) :
    BeforeComment line (withoutComment line) := by
  fun_induction withoutComment line with
  | case1 => exact ⟨0, rfl, by simp, .inr (by simp)⟩
  | case2 rest => exact ⟨0, rfl, by simp, .inl (by simp)⟩
  | case3 c cs hc ih =>
    obtain ⟨n, hcode, hbefore, hend⟩ := ih
    refine ⟨n + 1, by rw [hcode, List.take_succ_cons], ?_, by simpa using hend⟩
    intro i hi
    cases i with
    | zero =>
      rintro ⟨rest, hrest⟩
      simp only [List.drop_zero, List.cons_append, List.nil_append, List.cons.injEq] at hrest
      exact hc rest hrest.1.symm hrest.2.symm
    | succ i => exact hbefore i (by omega)

theorem BeforeComment.unique {line code other : List Char} (h : BeforeComment line code)
    (ho : BeforeComment line other) : code = other := by
  obtain ⟨n, rfl, hn, hend⟩ := h
  obtain ⟨m, rfl, hm, hstop⟩ := ho
  rcases Nat.lt_trichotomy n m with hlt | rfl | hlt
  · rcases hend with hslash | hlen
    · exact absurd hslash (hm n hlt)
    · rw [List.take_of_length_le hlen, List.take_of_length_le (by omega)]
  · rfl
  · rcases hstop with hslash | hlen
    · exact absurd hslash (hn m hlt)
    · rw [List.take_of_length_le hlen, List.take_of_length_le (by omega)]

theorem beforeComment_iff {line code : List Char} :
    BeforeComment line code ↔ code = withoutComment line :=
  ⟨fun h => h.unique (beforeComment_withoutComment line),
    fun h => h ▸ beforeComment_withoutComment line⟩

-- ---------------------------------------------------------------------------
-- Blanks around a text
-- ---------------------------------------------------------------------------

theorem trim_append_left {left : List Char} (h : Blanks left) (cs : List Char) :
    trim (left ++ cs) = trim cs := by
  rw [trim, trimLeft, List.dropWhile_append_of_pos h]
  rfl

theorem trimRight_append {right : List Char} (h : Blanks right) (cs : List Char) :
    trimRight (cs ++ right) = trimRight cs := by
  have hr : ∀ c ∈ right.reverse, isBlank c = true := fun c hc => h c (by simpa using hc)
  rw [trimRight, List.reverse_append, List.dropWhile_append_of_pos hr]
  rfl

theorem trim_append_right {right : List Char} (h : Blanks right) (cs : List Char) :
    trim (cs ++ right) = trim cs := by
  simp only [trim, trimLeft, List.dropWhile_append]
  split
  · next hcs =>
    rw [List.isEmpty_iff.mp hcs, List.dropWhile_eq_nil_iff.mpr h]
  · exact trimRight_append h _

theorem Tight.trim_eq {cs : List Char} (h : Tight cs) : trim cs = cs := by
  have hl : trimLeft cs = cs := by
    cases cs with
    | nil => rfl
    | cons c cs => simp [trimLeft, h.head c rfl]
  rw [trim, hl]
  refine List.rdropWhile_eq_self_iff.mpr fun hne => ?_
  simp [h.last _ (List.getLast?_eq_getLast_of_ne_nil hne)]

theorem tight_trim (cs : List Char) : Tight (trim cs) where
  head c hc := by
    cases hl : trimLeft cs with
    | nil => simp [trim, hl, trimRight] at hc
    | cons d ds =>
      have hd : isBlank d = false := by
        have hstop := List.head?_dropWhile_not isBlank cs
        rw [← trimLeft, hl] at hstop
        simpa using hstop
      have hp : trim cs <+: d :: ds := by
        rw [trim, hl]
        exact List.rdropWhile_prefix ..
      obtain ⟨rest, hrest⟩ := hp
      cases ht : trim cs with
      | nil => simp [ht] at hc
      | cons e es =>
        simp only [ht, List.cons_append, List.cons.injEq] at hrest
        simp only [ht, List.head?_cons, Option.mem_some_iff] at hc
        rw [← hc, hrest.1, hd]
  last c hc := by
    have hne : trim cs ≠ [] := fun hn => by simp [hn] at hc
    have hstop : ¬ isBlank ((trim cs).getLast hne) = true :=
      List.rdropWhile_last_not isBlank (trimLeft cs) hne
    rw [List.getLast?_eq_getLast_of_ne_nil hne, Option.mem_some_iff] at hc
    simpa [hc] using hstop

theorem within_trim (cs : List Char) : Within cs (trim cs) := by
  refine ⟨cs.takeWhile isBlank, (trimLeft cs).rtakeWhile isBlank, ?_, ?_, ?_, tight_trim cs⟩
  · rw [List.append_assoc]
    have hright : trim cs ++ (trimLeft cs).rtakeWhile isBlank = trimLeft cs :=
      List.rdropWhile_append_rtakeWhile ..
    rw [hright]
    exact List.takeWhile_append_dropWhile.symm
  · exact fun c hc => List.mem_takeWhile_imp hc
  · exact fun c hc => List.mem_rtakeWhile_imp hc

theorem Within.trim_eq {outer inner : List Char} (h : Within outer inner) :
    trim outer = inner := by
  obtain ⟨left, right, rfl, hl, hr, ht⟩ := h
  rw [trim_append_right hr, trim_append_left hl, ht.trim_eq]

theorem within_iff {outer inner : List Char} : Within outer inner ↔ inner = trim outer :=
  ⟨fun h => h.trim_eq.symm, fun h => h ▸ within_trim outer⟩

-- ---------------------------------------------------------------------------
-- The first word
-- ---------------------------------------------------------------------------

theorem firstWord_append {word gap : List Char} (hw : Word word) (hg : Gap gap)
    (rest : List Char) : firstWord (word ++ gap ++ rest) = word := by
  obtain ⟨g, gs, rfl⟩ := List.exists_cons_of_ne_nil hg.nonempty
  have hsolid : ∀ c ∈ word, (!isBlank c) = true := fun c hc => by simp [hw.solid c hc]
  rw [firstWord, List.append_assoc, List.takeWhile_append_of_pos hsolid]
  simp [hg.blanks g]

theorem afterWord_append {word gap : List Char} (hw : Word word) (hg : Gap gap)
    (rest : List Char) : afterWord (word ++ gap ++ rest) = trim rest := by
  obtain ⟨g, gs, rfl⟩ := List.exists_cons_of_ne_nil hg.nonempty
  have hsolid : ∀ c ∈ word, (!isBlank c) = true := fun c hc => by simp [hw.solid c hc]
  have hdrop : (word ++ (g :: gs ++ rest)).dropWhile (!isBlank ·) = g :: gs ++ rest := by
    rw [List.dropWhile_append_of_pos hsolid]
    simp [hg.blanks g]
  rw [afterWord, List.append_assoc, hdrop, trim_append_left hg.blanks]

theorem Word.firstWord_eq {cs : List Char} (h : Word cs) : firstWord cs = cs :=
  List.takeWhile_eq_self_iff.mpr fun c hc => by simp [h.solid c hc]

theorem Word.afterWord_eq {cs : List Char} (h : Word cs) : afterWord cs = [] := by
  have hnone : cs.dropWhile (!isBlank ·) = [] :=
    List.dropWhile_eq_nil_iff.mpr fun c hc => by simp [h.solid c hc]
  rw [afterWord, hnone]
  rfl

theorem word_of_all {cs : List Char} (hne : cs ≠ []) (h : cs.all (!isBlank ·) = true) :
    Word cs where
  nonempty := hne
  solid c hc := by simpa using List.all_eq_true.mp h c hc

theorem Word.newline_not_mem {cs : List Char} (h : Word cs) : '\n' ∉ cs := fun hmem =>
  absurd (h.solid _ hmem) (by decide)

theorem word_firstWord {cs : List Char} (ht : Tight cs) (hne : cs ≠ []) : Word (firstWord cs) where
  nonempty := by
    obtain ⟨c, rest, rfl⟩ := List.exists_cons_of_ne_nil hne
    simp [firstWord, ht.head c rfl]
  solid c hc := by simpa using List.mem_takeWhile_imp hc

/-- A text is its first word and what follows, with blanks between them if anything does. -/
theorem exists_space {cs : List Char} (ht : Tight cs) :
    ∃ space, Blanks space ∧ (space = [] → afterWord cs = []) ∧
      cs = firstWord cs ++ space ++ afterWord cs := by
  obtain ⟨left, right, hcs, hl, hr, htight⟩ := within_trim (cs.dropWhile (!isBlank ·))
  have hsplit : cs = firstWord cs ++ left ++ (afterWord cs ++ right) := by
    conv => lhs; rw [← firstWord_append_dropWhile cs, hcs]
    simp [afterWord]
  -- a blank at the end of the rest would stand at the end of the text
  have hright : right = [] := by
    by_contra hne
    have hlast : cs.getLast? = right.getLast? := by
      rw [hsplit, ← List.append_assoc, List.getLast?_append_of_ne_nil _ hne]
    rw [List.getLast?_eq_getLast_of_ne_nil hne] at hlast
    have := ht.last _ hlast
    rw [hr _ (List.getLast_mem hne)] at this
    cases this
  refine ⟨left, hl, ?_, by simpa [hright] using hsplit⟩
  rintro rfl
  by_contra hrest
  obtain ⟨c, rest, hc⟩ := List.exists_cons_of_ne_nil hrest
  have hstop := List.head?_dropWhile_not (fun c => !isBlank c) cs
  rw [hcs] at hstop
  have hblank : isBlank c = false := htight.head c (by rw [← afterWord, hc]; rfl)
  rw [← afterWord, hc] at hstop
  simp [hblank] at hstop

/-- A text of more than one word is its first word, a gap and what follows. -/
theorem exists_gap {cs : List Char} (ht : Tight cs) (hrest : afterWord cs ≠ []) :
    ∃ gap, Gap gap ∧ cs = firstWord cs ++ gap ++ afterWord cs := by
  obtain ⟨space, hb, hempty, hcs⟩ := exists_space ht
  exact ⟨space, ⟨mt hempty hrest, hb⟩, hcs⟩

-- ---------------------------------------------------------------------------
-- Separators
-- ---------------------------------------------------------------------------

/-- A text is cut at its first separator in one way. -/
theorem cut_unique {separator : Char} {cs ds left right : List Char} (hc : separator ∉ cs)
    (hd : separator ∉ ds) (h : cs ++ separator :: left = ds ++ separator :: right) :
    cs = ds ∧ left = right := by
  have hpieces := congrArg (List.splitOn separator) h
  rw [List.splitOn_append_cons_self_of_not_mem hc,
    List.splitOn_append_cons_self_of_not_mem hd] at hpieces
  obtain ⟨rfl, -⟩ := List.cons.inj hpieces
  exact ⟨rfl, List.cons.inj (List.append_cancel_left h) |>.2⟩

/-- Rows of texts without a separator are told apart once each text is ended by one. -/
theorem ended_injective {separator : Char} {ls ms : List (List Char)}
    (hl : ∀ l ∈ ls, separator ∉ l) (hm : ∀ m ∈ ms, separator ∉ m)
    (h : ls.flatMap (· ++ [separator]) = ms.flatMap (· ++ [separator])) : ls = ms := by
  induction ls generalizing ms with
  | nil =>
    cases ms with
    | nil => rfl
    | cons m ms => simp at h
  | cons l ls ih =>
    cases ms with
    | nil => simp at h
    | cons m ms =>
      simp only [List.flatMap_cons, List.append_assoc, List.singleton_append] at h
      obtain ⟨rfl, hrest⟩ := cut_unique (hl l (by simp)) (hm m (by simp)) h
      rw [ih (fun l' hl' => hl l' (by simp [hl'])) (fun m' hm' => hm m' (by simp [hm'])) hrest]

/-- Rows are told apart by what they are mapped to if their members are. -/
theorem eq_of_map_eq {α β : Type} {f : α → β} {as bs : List α}
    (hf : ∀ a ∈ as, ∀ b ∈ bs, f a = f b → a = b) (h : as.map f = bs.map f) : as = bs := by
  induction as generalizing bs with
  | nil => exact (List.map_eq_nil_iff.mp h.symm).symm
  | cons a as ih =>
    cases bs with
    | nil => cases h
    | cons b bs =>
      obtain ⟨hhead, htail⟩ := List.cons.inj h
      rw [hf a (by simp) b (by simp) hhead,
        ih (fun a' ha b' hb => hf a' (by simp [ha]) b' (by simp [hb])) htail]

-- ---------------------------------------------------------------------------
-- Digits
-- ---------------------------------------------------------------------------

theorem not_mem_toDigits {c : Char} (hc : c.isDigit = false) (n : Nat) :
    c ∉ Nat.toDigits 10 n := by
  intro hmem
  rw [Nat.isDigit_of_mem_toDigits (by decide) (by decide) hmem] at hc
  cases hc

theorem toDigits_injective {m n : Nat} (h : Nat.toDigits 10 m = Nat.toDigits 10 n) : m = n := by
  have hvalue := congrArg (Nat.ofDigitChars 10 · 0) h
  simpa using hvalue

-- ---------------------------------------------------------------------------
-- Identifiers
-- ---------------------------------------------------------------------------

theorem isAlpha_iff {c : Char} :
    c.isAlpha = true ↔ ('A' ≤ c ∧ c ≤ 'Z') ∨ ('a' ≤ c ∧ c ≤ 'z') := by
  have hupper : c.isUpper = true ↔ 'A' ≤ c ∧ c ≤ 'Z' := decide_eq_true_iff
  have hlower : c.isLower = true ↔ 'a' ≤ c ∧ c ≤ 'z' :=
    (Bool.and_eq_true_iff ..).trans (and_congr decide_eq_true_iff decide_eq_true_iff)
  rw [← hupper, ← hlower]
  exact Bool.or_eq_true_iff ..

theorem isDigit_iff {c : Char} : c.isDigit = true ↔ '0' ≤ c ∧ c ≤ '9' :=
  (Bool.and_eq_true_iff ..).trans (and_congr decide_eq_true_iff decide_eq_true_iff)

theorem startsIdentifier_iff {c : Char} : startsIdentifier c = true ↔ IsLetter c := by
  rw [startsIdentifier, IsLetter, Bool.or_eq_true, beq_iff_eq, isAlpha_iff, or_assoc]

theorem continuesIdentifier_iff {c : Char} :
    continuesIdentifier c = true ↔ IsLetter c ∨ ('0' ≤ c ∧ c ≤ '9') := by
  have hsplit : c.isAlphanum = true ↔ c.isAlpha = true ∨ c.isDigit = true :=
    Bool.or_eq_true_iff ..
  rw [← startsIdentifier_iff, continuesIdentifier, startsIdentifier, Bool.or_eq_true,
    Bool.or_eq_true, hsplit, isDigit_iff]
  exact or_right_comm

theorem isIdentifier_iff {cs : List Char} : isIdentifier cs = true ↔ Identifier cs := by
  cases cs with
  | nil => simp [isIdentifier, Identifier]
  | cons c cs =>
    simp [isIdentifier, Identifier, startsIdentifier_iff, continuesIdentifier_iff]

theorem isBlank_of_continuesIdentifier {c : Char} (h : continuesIdentifier c = true) :
    isBlank c = false := by
  rw [continuesIdentifier_iff] at h
  rcases h with (hupper | hlower | rfl) | hdigit
  · change 65 ≤ c.toNat ∧ c.toNat ≤ 90 at hupper
    simp [isBlank]
    omega
  · change 97 ≤ c.toNat ∧ c.toNat ≤ 122 at hlower
    simp [isBlank]
    omega
  · rfl
  · change 48 ≤ c.toNat ∧ c.toNat ≤ 57 at hdigit
    simp [isBlank]
    omega

theorem Identifier.continues {cs : List Char} (h : Identifier cs) :
    ∀ c ∈ cs, continuesIdentifier c = true := by
  obtain ⟨c, rest, rfl, hc, hrest⟩ := h
  intro d hd
  rw [continuesIdentifier_iff]
  rcases List.mem_cons.mp hd with rfl | hd
  · exact .inl hc
  · exact hrest d hd

theorem Identifier.word {cs : List Char} (h : Identifier cs) : Word cs where
  nonempty := by
    obtain ⟨c, rest, rfl, -⟩ := h
    simp
  solid c hc := isBlank_of_continuesIdentifier (h.continues c hc)

theorem Identifier.not_mem {cs : List Char} (h : Identifier cs) {c : Char}
    (hc : continuesIdentifier c = false) : c ∉ cs := by
  intro hmem
  rw [h.continues c hmem] at hc
  cases hc

theorem Identifier.comma_not_mem {cs : List Char} (h : Identifier cs) : ',' ∉ cs :=
  h.not_mem (by decide)

theorem Identifier.slash_not_mem {cs : List Char} (h : Identifier cs) : '/' ∉ cs :=
  h.not_mem (by decide)

theorem Word.tight {cs : List Char} (h : Word cs) : Tight cs where
  head c hc := h.solid c (List.mem_of_mem_head? hc)
  last c hc := h.solid c (List.mem_of_mem_getLast? hc)

theorem Tight.append {cs ds : List Char} (hc : Tight cs) (hd : Tight ds) (hcne : cs ≠ [])
    (hdne : ds ≠ []) (middle : List Char) : Tight (cs ++ middle ++ ds) where
  head c h := hc.head c (by rwa [List.append_assoc, List.head?_append_of_ne_nil _ hcne] at h)
  last c h := hd.last c (by rwa [List.getLast?_append_of_ne_nil _ hdne] at h)

/-- What stands at the right end of a tight text is tight if a word stands first in it. -/
theorem Tight.of_append {cs word rest : List Char} (h : Tight (cs ++ (word ++ rest)))
    (hw : Word word) : Tight (word ++ rest) where
  head c hc := hw.tight.head c (by rwa [List.head?_append_of_ne_nil _ hw.nonempty] at hc)
  last c hc := h.last c (by rwa [List.getLast?_append_of_ne_nil _ (by simp [hw.nonempty])])

theorem word_toDigits (n : Nat) : Word (Nat.toDigits 10 n) where
  nonempty := Nat.toDigits_ne_nil
  solid c hc := by
    have hdigit : c.isDigit = true := Nat.isDigit_of_mem_toDigits (by decide) (by decide) hc
    rw [isDigit_iff] at hdigit
    exact isBlank_of_continuesIdentifier (continuesIdentifier_iff.mpr (.inr hdigit))

-- ---------------------------------------------------------------------------
-- Words with a space behind them
-- ---------------------------------------------------------------------------

theorem gap_space : Gap [' '] where
  nonempty := by simp
  blanks := by simp [Blanks, isBlank]

theorem firstWord_space {word : List Char} (h : Word word) (rest : List Char) :
    firstWord (word ++ ' ' :: rest) = word := by
  rw [List.append_cons, firstWord_append h gap_space]

theorem afterWord_space {word rest : List Char} (h : Word word) (hr : Tight rest) :
    afterWord (word ++ ' ' :: rest) = rest := by
  rw [List.append_cons, afterWord_append h gap_space, hr.trim_eq]

theorem tight_space {word rest : List Char} (h : Word word) (hr : Tight rest) (hne : rest ≠ []) :
    Tight (word ++ ' ' :: rest) := by
  rw [List.append_cons]
  exact h.tight.append hr h.nonempty hne [' ']

end JackScopes.Text
