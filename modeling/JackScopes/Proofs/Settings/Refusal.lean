import JackScopes.Proofs.Json.Values
import JackScopes.Settings.Reading

/-!
# Where settings are refused

The readers of settings are local, so a text that is refused is refused at a place in it,
and every text that starts with the same bytes, up to that place and one more, is refused
for the same reason at the same place: `ofString_error_local`. Only a text that ends too
early is refused at its end, and may be read with more behind it.
-/

namespace JackScopes.Settings

open Json (Cause Misreading)
open Json.Reader
open Text (Shares Foreign utf8)

-- ---------------------------------------------------------------------------
-- Values
-- ---------------------------------------------------------------------------

theorem local_choice : Local choice := by
  refine local_stringBody.bind fun name => ?_
  cases UnknownNames.ofString? name with
  | none => exact local_failAfter rfl
  | some choice => exact local_pure choice

theorem local_choiceEnd (choice : UnknownNames) : Local (do
    match ← peekPastBlanks with
    | none => failAt .endInObject
    | some '\x7d' => do
      advance
      return choice
    | some _ => failAfter .expectedValue) := by
  refine local_peekPastBlanks (failAfter .expectedValue) (stays_failAt _) (fun c => ?_)
    fun c hc => by split <;> simp_all [Foreign]
  split
  · next h => cases h
  · exact local_advance.bind fun _ => local_pure choice
  · exact local_failAfter rfl

theorem local_choiceObject : Local choiceObject := by
  refine local_peekPastBlanks (failAt .keyNotString) (stays_failAt _) (fun c => ?_)
    fun c hc => by split <;> simp_all [Foreign]
  split
  · next h => cases h
  · exact local_advance.bind fun _ => local_choice.bind fun choice =>
      local_colon.bind fun _ => (local_null "unit").bind fun _ => local_choiceEnd choice
  · exact local_failAt rfl
  · exact local_failAt rfl

theorem local_unknownNamesValue : Local unknownNamesValue := by
  refine local_peekPastBlanks (failAt .expectedValue) (stays_failAt _) (fun c => ?_)
    fun c hc => by split <;> simp_all [Foreign]
  split
  · next h => cases h
  · exact local_advance.bind fun _ => local_choice
  · exact local_advance.bind fun _ => local_choiceObject
  · exact local_failAt rfl

theorem local_value (draft : Draft) (member : Member) : Local (value draft member) := by
  cases member with
  | unknownNames => exact local_unknownNamesValue.bind fun _ => local_pure _
  | logLevel => exact (local_string _).bind fun _ => local_pure _

-- ---------------------------------------------------------------------------
-- Objects
-- ---------------------------------------------------------------------------

theorem local_refuseKey {α : Type} {cause : Cause} (hcause : cause.isEnd = false) :
    Local (refuseKey cause : Json.Reader α) := by
  have hfail : Local (failAfter cause : Json.Reader α) := local_failAfter hcause
  refine local_peekPastBlanks (failAfter cause) (stays_failAfter _) (fun c => ?_) fun c hc => ?_
  · split
    · exact local_advance.bind fun _ => hfail
    · exact hfail
  · exact if_neg (hc.some_ne (by decide))

theorem local_member (draft : Draft) : Local (member draft) := by
  refine local_stringBody.bind fun key => ?_
  split
  · exact local_refuseKey rfl
  · split
    · exact local_refuseKey rfl
    · exact local_colon.bind fun _ => local_value draft _

theorem local_members (draft : Draft) (room : Nat) : Local (members draft room) := by
  induction room generalizing draft with
  | zero => exact local_member draft
  | succ room ih =>
    refine (local_member draft).bind fun draft =>
      local_peekPastBlanks (failAt .expectedObjectEnd) (stays_failAt _) (fun c => ?_)
        fun c hc => by split <;> simp_all [Foreign]
    split
    · next h => cases h
    · exact local_advance.bind fun _ => local_pure draft
    · refine local_advance.bind fun _ =>
        local_peekPastBlanks (failAt .keyNotString) (stays_failAt _) (fun c => ?_)
          fun c hc => by split <;> simp_all [Foreign]
      split
      · next h => cases h
      · exact local_advance.bind fun _ => ih draft
      · exact local_failAt rfl
      · exact local_failAt rfl
    · exact local_failAt rfl

theorem local_object : Local object := by
  refine local_peekPastBlanks (failAt .keyNotString) (stays_failAt _) (fun c => ?_)
    fun c hc => by split <;> simp_all [Foreign]
  split
  · next h => cases h
  · exact local_advance.bind fun _ => local_pure _
  · exact local_advance.bind fun _ => local_members {} _
  · exact local_failAt rfl

-- ---------------------------------------------------------------------------
-- Lists
-- ---------------------------------------------------------------------------

theorem local_listEnd : Local listEnd := by
  have hend : Local (failAt .trailingCharacters : Json.Reader Unit) := local_failAt rfl
  refine local_peekPastBlanks (failAt .trailingCharacters) (stays_failAt _) (fun c => ?_)
    fun c hc => by split <;> simp_all [Foreign]
  split
  · next h => cases h
  · exact local_advance
  · refine local_advance.bind fun _ =>
      local_peekPastBlanks (failAt .trailingCharacters) hend.stays (fun c => ?_)
        fun c hc => if_neg (hc.some_ne (by decide))
    split
    · exact local_failAt rfl
    · exact hend
  · exact hend

theorem local_lastValue (draft : Draft) : Local (do
    let draft ← value draft .logLevel
    listEnd
    return draft) :=
  (local_value draft .logLevel).bind fun draft => local_listEnd.bind fun _ => local_pure draft

theorem local_afterFirst (draft : Draft) : Local (afterFirst draft) := by
  refine local_peekPastBlanks (failAt .expectedListEnd) (stays_failAt _) (fun c => ?_)
    fun c hc => by split <;> simp_all [Foreign]
  split
  · next h => cases h
  · exact local_advance.bind fun _ => local_pure draft
  · refine local_advance.bind fun _ => local_peekPastBlanks (do
      let draft ← value draft .logLevel
      listEnd
      return draft) (stays_failAt _) (fun c => ?_) fun c hc => by split <;> simp_all [Foreign]
    split
    · next h => cases h
    · exact local_failAt rfl
    · exact local_lastValue draft
  · exact local_failAt rfl

theorem local_list : Local list := by
  have hvalues : Local (value {} .unknownNames >>= afterFirst) :=
    (local_value {} .unknownNames).bind local_afterFirst
  refine local_peekPastBlanks (value {} .unknownNames >>= afterFirst) (stays_failAt _)
    (fun c => ?_) fun c hc => by split <;> simp_all [Foreign]
  split
  · next h => cases h
  · exact local_advance.bind fun _ => local_pure _
  · exact hvalues

-- ---------------------------------------------------------------------------
-- Whole texts
-- ---------------------------------------------------------------------------

theorem local_root : Local root := by
  refine local_peekPastBlanks (mismatch "struct Config") (stays_failAt _) (fun c => ?_)
    fun c hc => by split <;> simp_all [Foreign]
  split
  · next h => cases h
  · exact local_advance.bind fun _ => local_object
  · exact local_advance.bind fun _ => local_list
  · exact local_mismatch _

/-- The fault that gives a reason and a place: a line, and a column in bytes, behind the
bytes given. -/
def refusal (reason : String) (before : List UInt8) : Fault :=
  .failureFrom "malformed configuration" (.message (reason ++ " at line " ++
    toString (1 + before.count 10) ++ " column " ++
    toString (before.rtakeWhile (· ≠ 10)).length))

/-- A text is refused for a reason at a place in it. If the text does not end too early, the
bytes up to that place and one more decide this for every text that starts with them. -/
structure RefusedAt (text : String) (misreading : Misreading) (fault : Fault) : Prop where
  within : misreading.position ≤ (utf8 text.toList).length
  fault_eq : fault = refusal misreading.cause.text ((utf8 text.toList).take misreading.position)
  atEnd : "EOF while ".toList <+: misreading.cause.text.toList →
    misreading.position = (utf8 text.toList).length
  shared : ¬ "EOF while ".toList <+: misreading.cause.text.toList → ∀ other : String,
    Shares (misreading.position + 1) text.toList other.toList →
      read other = .error misreading ∧ ofString other = .error fault

theorem head?_append {s : String} {c : Char} (h : s.toList.head? = some c) (t : String) :
    (s ++ t).toList.head? = some c := by
  rw [String.toList_append, List.head?_append, h]
  rfl

theorem head?_text {cause : Cause} (h : cause.isEnd = false) :
    cause.text.toList.head? ≠ some 'E' := by
  have hne (c : Char) (hc : cause.text.toList.head? = some c) (hE : c ≠ 'E') :
      cause.text.toList.head? ≠ some 'E' := by
    rw [hc]
    exact fun hsome => hE (Option.some.inj hsome)
  cases cause with
  | unexpected found wanted =>
    exact hne 'i' (head?_append (head?_append (head?_append (by decide) _) _) _) (by decide)
  | unknownField name known =>
    exact hne 'u' (head?_append (head?_append (head?_append (by decide) _) _) _) (by decide)
  | repeatedField name => exact hne 'd' (head?_append (head?_append (by decide) _) _) (by decide)
  | unknownVariant name known =>
    exact hne 'u' (head?_append (head?_append (head?_append (by decide) _) _) _) (by decide)
  | endInValue | endInList | endInObject | endInString => cases h
  | _ => decide

theorem isEnd_iff {cause : Cause} :
    cause.isEnd = true ↔ "EOF while ".toList <+: cause.text.toList := by
  constructor
  · intro h
    cases cause with
    | endInValue | endInList | endInObject | endInString => decide
    | _ => cases h
  · rintro ⟨rest, hrest⟩
    by_contra hend
    refine head?_text (Bool.eq_false_iff.mpr hend) ?_
    rw [← hrest]
    rfl

theorem malformedSettings_text (misreading : Misreading) (text : String) :
    Fault.malformedSettings (misreading.text text) =
      refusal misreading.cause.text ((utf8 text.toList).take misreading.position) := by
  have hline : " at line " = " at " ++ "line " := by simp only [String.reduceAppend]
  rw [refusal, Fault.malformedSettings, Misreading.text, Misreading.place, Text.Place.after_eq,
    Text.Place.text, hline]
  simp only [String.append_assoc]

theorem ofString_error {text : String} {fault : Fault} :
    ofString text = .error fault ↔ ∃ misreading, read text = .error misreading ∧
      fault = refusal misreading.cause.text ((utf8 text.toList).take misreading.position) := by
  simp only [← malformedSettings_text]
  rw [ofString]
  cases read text with
  | ok settings => simp
  | error misreading => simp [eq_comm]

/-- A refused text is refused at a place in it, by what stands before that place and at it. -/
theorem ofString_error_local {text : String} {fault : Fault} (h : ofString text = .error fault) :
    ∃ misreading, read text = .error misreading ∧ RefusedAt text misreading fault := by
  obtain ⟨misreading, hread, rfl⟩ := ofString_error.mp h
  have hroot : ∀ {other : String}, root.readAll other = .error misreading ↔
      read other = .error misreading := by
    intro other
    rw [read]
    cases root.readAll other <;> simp [Except.map]
  obtain ⟨hwithin, hend, hshared⟩ := local_root.pinned_readAll (hroot.mpr hread)
  rw [← Text.length_utf8] at hwithin hend
  refine ⟨misreading, hread, hwithin, rfl, fun hcause => hend (isEnd_iff.mpr hcause), ?_⟩
  intro hcause other hother
  have hread' : read other = .error misreading :=
    hroot.mp (hshared (Bool.eq_false_iff.mpr fun hend => hcause (isEnd_iff.mp hend)) other hother)
  exact ⟨hread', ofString_error.mpr ⟨misreading, hread', by rw [hother.take_eq (Nat.le_succ _)]⟩⟩

/-- A field that nobody knows is refused at the colon, whatever comes behind that. -/
theorem ofString_error_local_unknown_field :
    let start := "\x7b\n\"verbose\" :".toList
    let fault := Fault.failureFrom "malformed configuration" (.message
      "unknown field `verbose`, expected `unknownNames` or `logLevel` at line 2 column 10")
    ofString (String.ofList (start ++ [' ', '1', '\x7d'])) = .error fault ∧
      ∀ rest : List Char, ofString (String.ofList (start ++ rest)) = .error fault := by
  intro start fault
  have hfault : ofString (String.ofList (start ++ [' ', '1', '\x7d'])) = .error fault := by
    decide +kernel
  have hmisread : read (String.ofList (start ++ [' ', '1', '\x7d'])) =
      .error ⟨.unknownField "verbose" ["unknownNames", "logLevel"], 12⟩ := by
    decide +kernel
  refine ⟨hfault, fun rest => ?_⟩
  obtain ⟨misreading, hread, hrefused⟩ := ofString_error_local hfault
  obtain rfl := Except.error.inj (hmisread.symm.trans hread)
  have hnothing : Shares 0 [' ', '1', '\x7d'] rest := .inr ⟨[], rfl, by simp, by simp⟩
  refine (hrefused.shared (by decide) _ ?_).2
  rw [String.toList_ofList, String.toList_ofList]
  exact hnothing.append_left start

end JackScopes.Settings
