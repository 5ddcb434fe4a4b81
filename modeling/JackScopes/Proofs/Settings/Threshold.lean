import JackScopes.Proofs.Settings.Format

/-!
# Thresholds as they are written

A log threshold is a word, in letters of either case, or a digit from one to five behind
any zeros and at most one plus sign. Nothing else is one: a number that takes more than 64
bits is refused and does not come round to a small one. Settings hold what the user wrote,
letter by letter, whether it is a threshold or not: `severity_of_written`.
-/

namespace JackScopes

namespace Severity

/-- The word for a severity. Its letters may be of either case. -/
def keyword : Severity → List Char
  | .error => "error".toList
  | .warn => "warn".toList
  | .info => "info".toList
  | .debug => "debug".toList
  | .trace => "trace".toList

def digit : Severity → Char
  | .error => '1'
  | .warn => '2'
  | .info => '3'
  | .debug => '4'
  | .trace => '5'

inductive Written (severity : Severity) : List Char → Prop
  | name {cs : List Char} : cs.map Char.toLower = severity.keyword → Written severity cs
  | number {sign zeros : List Char} :
      sign = [] ∨ sign = ['+'] → (∀ c ∈ zeros, c = '0') →
      Written severity (sign ++ zeros ++ [severity.digit])

structure Digits (cs : List Char) : Prop where
  nonempty : cs ≠ []
  isDigit : ∀ c ∈ cs, c.isDigit = true

-- ---------------------------------------------------------------------------
-- Numbers
-- ---------------------------------------------------------------------------

theorem le_ofDigitChars (n : Nat) (ds : List Char) : n ≤ Nat.ofDigitChars 10 ds n := by
  rw [Nat.ofDigitChars_eq_ofDigitChars_zero]
  exact (Nat.le_mul_of_pos_left n (by positivity)).trans (Nat.le_add_right ..)

theorem addDigits?_eq_some_iff {n m : Nat} (hn : n < numberLimit) {ds : List Char} :
    addDigits? n ds = some m ↔ Nat.ofDigitChars 10 ds n = m ∧ m < numberLimit := by
  induction ds generalizing n with
  | nil =>
    simp only [addDigits?, Option.some.injEq, Nat.ofDigitChars_nil, iff_self_and]
    rintro rfl
    exact hn
  | cons d ds ih =>
    rw [addDigits?]
    split
    · next hnext => exact ih hnext
    · next hnext =>
      -- further digits do not make the number smaller
      have hle := le_ofDigitChars (10 * n + (d.toNat - '0'.toNat)) ds
      simp only [reduceCtorEq, false_iff, not_and, not_lt]
      rintro rfl
      exact (not_lt.mp hnext).trans hle

theorem readNumber?_eq_some_iff {cs : List Char} {n : Nat} :
    readNumber? cs = some n ↔
      ∃ sign ds, (sign = [] ∨ sign = ['+']) ∧ Digits ds ∧ cs = sign ++ ds ∧
        Nat.ofDigitChars 10 ds 0 = n ∧ n < numberLimit := by
  have hread {ds : List Char} :
      (if !ds.isEmpty && ds.all Char.isDigit then addDigits? 0 ds else none) = some n ↔
        Digits ds ∧ Nat.ofDigitChars 10 ds 0 = n ∧ n < numberLimit := by
    rw [Option.ite_none_right_eq_some, addDigits?_eq_some_iff (by decide)]
    refine and_congr_left fun _ => ?_
    simp only [Bool.and_eq_true, Bool.not_eq_true', List.isEmpty_eq_false_iff, List.all_eq_true]
    exact ⟨fun h => ⟨h.1, h.2⟩, fun h => ⟨h.nonempty, h.isDigit⟩⟩
  unfold readNumber?
  simp only [hread]
  split
  · next rest =>
    constructor
    · rintro ⟨hds, hvalue⟩
      exact ⟨['+'], rest, .inr rfl, hds, rfl, hvalue⟩
    · rintro ⟨sign, ds, rfl | rfl, hds, hcs, hvalue⟩
      · obtain rfl : '+' :: rest = ds := hcs
        cases hds.isDigit '+' List.mem_cons_self
      · cases hcs
        exact ⟨hds, hvalue⟩
  · next hplus =>
    constructor
    · rintro ⟨hds, hvalue⟩
      exact ⟨[], cs, .inl rfl, hds, rfl, hvalue⟩
    · rintro ⟨sign, ds, rfl | rfl, hds, rfl, hvalue⟩
      · exact ⟨hds, hvalue⟩
      · exact absurd rfl (hplus ds)

theorem ofDigitChars_eq_zero_iff {ds : List Char} (h : ∀ c ∈ ds, c.isDigit = true) :
    Nat.ofDigitChars 10 ds 0 = 0 ↔ ∀ c ∈ ds, c = '0' := by
  induction ds with
  | nil => simp
  | cons d ds ih =>
    obtain ⟨hd, hds⟩ := List.forall_mem_cons.mp h
    have hle : 48 ≤ d.toNat := (Char.isDigit_iff_toNat.mp hd).1
    have hzero : d = '0' ↔ d.toNat - 48 = 0 := by
      rw [← Char.toNat_inj]
      change d.toNat = 48 ↔ _
      omega
    have hcons : Nat.ofDigitChars 10 (d :: ds) 0 = Nat.ofDigitChars 10 ds (d.toNat - 48) := by
      simp [Nat.ofDigitChars]
    rw [hcons, Nat.ofDigitChars_eq_ofDigitChars_zero, Nat.add_eq_zero_iff, ih hds, List.forall_mem_cons,
      hzero]
    simp

/-- Only zeros can stand before the one digit of a small number. -/
theorem ofDigitChars_eq_number_iff {ds : List Char} (h : Digits ds) {severity : Severity} :
    Nat.ofDigitChars 10 ds 0 = severity.number ↔
      ∃ zeros, (∀ c ∈ zeros, c = '0') ∧ ds = zeros ++ [severity.digit] := by
  obtain ⟨front, last, rfl⟩ := (List.eq_nil_or_concat' ds).resolve_left h.nonempty
  have hfront : ∀ c ∈ front, c.isDigit = true := fun c hc => h.isDigit c (by simp [hc])
  have hmin : 48 ≤ last.toNat := (Char.isDigit_iff_toNat.mp (h.isDigit last (by simp))).1
  have hsplit : Nat.ofDigitChars 10 (front ++ [last]) 0 =
      10 * Nat.ofDigitChars 10 front 0 + (last.toNat - 48) := by
    simp [Nat.ofDigitChars]
  have hdigit : last = severity.digit ↔ last.toNat - 48 = severity.number := by
    have hnumber : severity.digit.toNat = severity.number + 48 := by cases severity <;> rfl
    rw [← Char.toNat_inj, hnumber]
    omega
  rw [hsplit]
  constructor
  · intro hvalue
    have hnumber : severity.number ≤ 5 := by cases severity <;> decide
    exact ⟨front, (ofDigitChars_eq_zero_iff hfront).mp (by omega), by rw [hdigit.mpr (by omega)]⟩
  · rintro ⟨zeros, hzeros, heq⟩
    obtain ⟨rfl, hlast⟩ := List.append_inj' heq rfl
    rw [(ofDigitChars_eq_zero_iff hfront).mpr hzeros, hdigit.mp (by simpa using hlast)]
    omega

-- ---------------------------------------------------------------------------
-- Numbers and words
-- ---------------------------------------------------------------------------

theorem find?_all_eq_some_iff {p : Severity → Bool} {severity : Severity}
    (hunique : ∀ other, p other = true → p severity = true → other = severity) :
    all.find? p = some severity ↔ p severity = true := by
  refine ⟨fun h => List.find?_some h, fun h => ?_⟩
  cases hf : all.find? p with
  | none =>
    exact absurd h (List.find?_eq_none.mp hf severity (by cases severity <;> decide))
  | some other => rw [hunique other (List.find?_some hf) h]

theorem ofNumber?_eq_some_iff {n : Nat} {severity : Severity} :
    ofNumber? n = some severity ↔ n = severity.number := by
  rw [ofNumber?, find?_all_eq_some_iff, decide_eq_true_iff, eq_comm]
  intro other ho h
  simp only [decide_eq_true_eq] at ho h
  cases severity <;> cases other <;> first | rfl | cases ho.trans h.symm

theorem ofName?_eq_some_iff {s : String} {severity : Severity} :
    ofName? s = some severity ↔ s.toList.map Char.toLower = severity.keyword := by
  have hletters (severity : Severity) : Text.sameLetters severity.name s = true ↔
      s.toList.map Char.toLower = severity.keyword := by
    have hname : severity.name.toList.map Char.toLower = severity.keyword := by
      cases severity <;> decide
    rw [Text.sameLetters, hname, beq_iff_eq, eq_comm]
  rw [ofName?, find?_all_eq_some_iff, hletters]
  intro other ho h
  have hsame := ((hletters other).mp ho).symm.trans ((hletters severity).mp h)
  cases severity <;> cases other <;> first | rfl | exact absurd hsame (by decide)

theorem toLower_of_isDigit {c : Char} (h : c.isDigit = true) : c.toLower = c := by
  have hmax : c.toNat ≤ 57 := (Char.isDigit_iff_toNat.mp h).2
  refine dif_neg ?_
  rintro ⟨hl, -⟩
  change 65 ≤ c.toNat at hl
  omega

theorem isDigit_of_mem_keyword {severity : Severity} {c : Char} (hc : c ∈ severity.keyword) :
    c.isDigit = false := by
  have hall : severity.keyword.all (!·.isDigit) = true := by cases severity <;> decide
  simpa using List.all_eq_true.mp hall c hc

/-- A word for a severity does not end in a number. -/
theorem not_digits_of_keyword {severity : Severity} {cs ds : List Char}
    (h : cs.map Char.toLower = severity.keyword) (hsuffix : ds <:+ cs) : ¬ Digits ds := by
  intro hds
  obtain ⟨c, hc⟩ := List.exists_mem_of_ne_nil ds hds.nonempty
  have hdigit := hds.isDigit c hc
  have hmem : c ∈ cs.map Char.toLower :=
    List.mem_map.mpr ⟨c, hsuffix.subset hc, toLower_of_isDigit hdigit⟩
  rw [h] at hmem
  exact Bool.false_ne_true ((isDigit_of_mem_keyword hmem).symm.trans hdigit)

theorem digits_of_zeros {zeros : List Char} (h : ∀ c ∈ zeros, c = '0') (severity : Severity) :
    Digits (zeros ++ [severity.digit]) where
  nonempty := by simp
  isDigit c hc := by
    rcases List.mem_append.mp hc with hc | hc
    · rw [h c hc]
      rfl
    · rw [List.mem_singleton.mp hc]
      cases severity <;> rfl

theorem ofString?_eq_some_iff {s : String} {severity : Severity} :
    ofString? s = some severity ↔ severity.Written s.toList := by
  have hnumber : (readNumber? s.toList).bind ofNumber? = some severity ↔
      ∃ sign zeros, (sign = [] ∨ sign = ['+']) ∧ (∀ c ∈ zeros, c = '0') ∧
        s.toList = sign ++ zeros ++ [severity.digit] := by
    simp only [Option.bind_eq_some_iff, readNumber?_eq_some_iff, ofNumber?_eq_some_iff]
    constructor
    · rintro ⟨n, ⟨sign, ds, hsign, hds, hs, hvalue, -⟩, rfl⟩
      obtain ⟨zeros, hzeros, rfl⟩ := (ofDigitChars_eq_number_iff hds).mp hvalue
      exact ⟨sign, zeros, hsign, hzeros, by rw [hs, List.append_assoc]⟩
    · rintro ⟨sign, zeros, hsign, hzeros, hs⟩
      have hds := digits_of_zeros hzeros severity
      refine ⟨_, ⟨sign, _, hsign, hds, by rw [hs, List.append_assoc],
        (ofDigitChars_eq_number_iff hds).mpr ⟨zeros, hzeros, rfl⟩, ?_⟩, rfl⟩
      cases severity <;> decide
  rw [ofString?, Option.or_eq_some_iff, hnumber, ofName?_eq_some_iff]
  constructor
  · rintro (⟨sign, zeros, hsign, hzeros, hs⟩ | ⟨-, hname⟩)
    · exact hs ▸ .number hsign hzeros
    · exact .name hname
  · generalize hs : s.toList = cs
    rintro (hname | ⟨hsign, hzeros⟩)
    · refine .inr ⟨?_, hname⟩
      rw [Option.bind_eq_none_iff]
      intro n hn
      obtain ⟨sign, ds, -, hds, hsplit, -⟩ := readNumber?_eq_some_iff.mp hn
      subst hsplit
      exact absurd hds (not_digits_of_keyword hname (List.suffix_append ..))
    · exact .inl ⟨_, _, hsign, hzeros, rfl⟩

/-- A row of digits is a threshold by its value, however large that is. -/
theorem written_iff_of_digits {cs : List Char} (h : Digits cs) {severity : Severity} :
    severity.Written cs ↔ Nat.ofDigitChars 10 cs 0 = severity.number := by
  rw [ofDigitChars_eq_number_iff h]
  constructor
  · rintro (hname | ⟨rfl | rfl, hzeros⟩)
    · exact absurd h (not_digits_of_keyword hname List.suffix_rfl)
    · exact ⟨_, hzeros, rfl⟩
    · cases h.isDigit '+' (by simp)
  · rintro ⟨zeros, hzeros, rfl⟩
    exact .number (.inl rfl) hzeros

end Severity

namespace Settings

open Json (Blanks Spelled Token)
open Json.Quoted (Literal)

-- ---------------------------------------------------------------------------
-- The level that is kept
-- ---------------------------------------------------------------------------

theorem logLevel_put {settings : Settings} {given : Given} (h : given.member ≠ .logLevel) :
    (settings.put given).logLevel = settings.logLevel := by
  cases given with
  | unknownNames choice => rfl
  | logLevel level => exact absurd rfl h

theorem logLevel_foldl_put_of_not_mem {givens : List Given}
    (h : ∀ given ∈ givens, given.member ≠ .logLevel) (settings : Settings) :
    (givens.foldl put settings).logLevel = settings.logLevel := by
  induction givens generalizing settings with
  | nil => rfl
  | cons given givens ih =>
    obtain ⟨hgiven, hgivens⟩ := List.forall_mem_cons.mp h
    exact (ih hgivens _).trans (logLevel_put hgiven)

theorem logLevel_foldl_put {givens : List Given} {level : String}
    (hdistinct : (givens.map Given.member).Nodup) (hlevel : .logLevel level ∈ givens)
    (settings : Settings) : (givens.foldl put settings).logLevel = level := by
  induction givens generalizing settings with
  | nil => cases hlevel
  | cons given givens ih =>
    obtain ⟨hnew, hrest⟩ := List.nodup_cons.mp hdistinct
    rcases List.mem_cons.mp hlevel with rfl | hlevel
    · have hothers : ∀ other ∈ givens, other.member ≠ .logLevel :=
        fun other ho hmember => hnew (List.mem_map.mpr ⟨other, ho, hmember⟩)
      rw [List.foldl_cons, logLevel_foldl_put_of_not_mem hothers]
      rfl
    · exact ih hrest hlevel _

theorem Written.nodup {givens : List Given} {tokens : List Token} (h : Written givens tokens) :
    (givens.map Given.member).Nodup := by
  cases h with
  | object hdistinct => exact hdistinct
  | list hmembers => exact hmembers.sublist.nodup (by decide)

theorem exists_settings_of_written {givens : List Given} {tokens : List Token}
    {written right : List Char} {text level : String} (hgivens : Written givens tokens)
    (hwritten : Spelled tokens written) (hright : Blanks right)
    (htext : text.toList = written ++ right) (hlevel : .logLevel level ∈ givens) :
    ∃ settings, ofString text = .ok settings ∧ settings.logLevel = level := by
  have hread := reads_root.readAll_ok.mpr
    ⟨tokens, written, right, ⟨givens, hgivens, rfl⟩, hwritten, hright, htext⟩
  refine ⟨_, ofString_ok.mpr ⟨_, hread, rfl⟩, ?_⟩
  rw [settings_foldl_put]
  exact logLevel_foldl_put hgivens.nodup hlevel _

theorem severity_ok {settings : Settings} {severity : Severity} :
    settings.severity = .ok severity ↔ severity.Written settings.logLevel.toList := by
  rw [← Severity.ofString?_eq_some_iff, Settings.severity]
  cases Severity.ofString? settings.logLevel <;> simp

theorem severity_error {settings : Settings} {fault : Fault} :
    settings.severity = .error fault ↔
      (∀ severity : Severity, ¬ severity.Written settings.logLevel.toList) ∧
        fault = .failureFrom ("invalid log level `" ++ settings.logLevel ++ "`")
          (.message levelAdvice) := by
  simp only [← severity_ok, Settings.severity]
  cases Severity.ofString? settings.logLevel <;> simp [eq_comm]

/-- A level is read as the threshold it is written as. A row of digits is one by its value,
however long it is. Any other level is a failure that quotes it. In both cases settings hold
the level as it was given. -/
theorem severity_of_written (choice : UnknownNames) (level : String) :
    let settings : Settings := ⟨choice, level⟩
    (∀ severity, settings.severity = .ok severity ↔ severity.Written level.toList) ∧
      (Severity.Digits level.toList → ∀ severity, settings.severity = .ok severity ↔
        Nat.ofDigitChars 10 level.toList 0 = severity.number) ∧
      (∀ fault, settings.severity = .error fault ↔
        (∀ severity : Severity, ¬ severity.Written level.toList) ∧
          fault = .failureFrom ("invalid log level `" ++ level ++ "`") (.message levelAdvice)) ∧
      ∀ (text : String) givens tokens written right, Written givens tokens →
        Spelled tokens written → Blanks right → text.toList = written ++ right →
          .logLevel level ∈ givens →
            ∃ settings, ofString text = .ok settings ∧ settings.logLevel = level := by
  intro settings
  refine ⟨fun _ => severity_ok, fun hdigits _ => ?_, fun _ => severity_error, ?_⟩
  · rw [severity_ok, Severity.written_iff_of_digits hdigits]
  · intro text givens tokens written right hgivens hwritten hright htext hlevel
    exact exists_settings_of_written hgivens hwritten hright htext hlevel

theorem severity_of_written_padded :
    (⟨.reject, "+03"⟩ : Settings).severity = .ok .info ∧
      ∃ settings, ofString "\x7b\"logLevel\":\"+03\"\x7d" = .ok settings ∧
        settings.logLevel = "+03" := by
  obtain ⟨hread, -, -, hkept⟩ := severity_of_written .reject "+03"
  have hthree : Severity.Written .info (['+'] ++ ['0'] ++ ['3']) := .number (.inr rfl) (by simp)
  have hgivens : Written [.logLevel "+03"]
      [.openBrace, .string "logLevel", .colon, .string "+03", .closeBrace] :=
    .object (by simp) (.single (.intro (.level "+03")))
  have hkey : Literal "logLevel".toList "logLevel".toList := .plain (by simp)
  have hlevel : Literal "+03".toList "+03".toList := .plain (by simp)
  have hblanks : Blanks [] := by simp [Blanks]
  have hopen : Token.Written .openBrace ['\x7b'] := .letters rfl
  have hcolon : Token.Written .colon [':'] := .letters rfl
  have hclose : Token.Written .closeBrace ['\x7d'] := .letters rfl
  have hspelled := Spelled.cons hblanks hopen (.cons hblanks (.string hkey)
    (.cons hblanks hcolon (.cons hblanks (.string hlevel) (.cons hblanks hclose .nil))))
  refine ⟨(hread .info).mpr hthree, ?_⟩
  exact hkept _ _ _ _ [] hgivens hspelled hblanks (by simp) (by simp)

/-- In 64 bits this number would come round to one, and many zeros do no harm. -/
example : Severity.ofString? "18446744073709551617" = none ∧
    Severity.ofString? "+000000000000000000000000000003" = some .info := by decide +kernel

end Settings

end JackScopes
