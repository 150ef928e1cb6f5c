import Mathlib.Data.List.TakeWhile
import BuildDiagnostics.Block

/-!
# What a header line says

A header is read by taking a line apart at its first four colons. `Header.text` puts the fields
together again, and the two are inverse as long as no field before the message holds a colon
(`ofLine_eq_ok_iff`). Such a line opens a block exactly when its severity is one of the words for one
(`isBlockStart_text`). Of the numbers in a header `readPosition` answers every one but the largest
(`readPosition_lt`), and it reads back what `oneBased` writes (`readPosition_oneBased`).
-/

namespace BuildDiagnostics

namespace Text

/-! ## Pieces between separators -/

section Split

variable {α : Type} [DecidableEq α] {sep : α}

theorem splitFirst_append_cons {xs : List α} (h : sep ∉ xs) (n : Nat) (rest : List α) :
    splitFirst sep (n + 2) (xs ++ sep :: rest) = xs :: splitFirst sep (n + 1) rest := by
  have hne : ∀ x ∈ xs, decide (x ≠ sep) = true :=
    fun x hx => decide_eq_true fun e => h (e ▸ hx)
  rw [splitFirst, List.dropWhile_append_of_pos hne, List.takeWhile_append_of_pos hne]
  simp

/-- A piece that another one follows ends at the first separator. -/
theorem exists_of_splitFirst_cons_cons {n : Nat} {xs piece next : List α}
    {pieces : List (List α)} (h : splitFirst sep (n + 2) xs = piece :: next :: pieces) :
    ∃ rest, xs = piece ++ sep :: rest ∧ sep ∉ piece ∧
      splitFirst sep (n + 1) rest = next :: pieces := by
  unfold splitFirst at h
  split at h
  · cases h
  · next x rest e =>
    rw [List.cons.injEq] at h
    obtain ⟨rfl, hrest⟩ := h
    have hx : x = sep := by
      have := List.head?_dropWhile_not (fun y => decide (y ≠ sep)) xs
      rw [e] at this
      simpa using this
    refine ⟨rest, ?_, ?_, hrest⟩
    · rw [hx] at e
      rw [← e, List.takeWhile_append_dropWhile]
    · intro hmem
      have := List.mem_takeWhile_imp hmem
      simp at this

/-- What comes before the first separator is a piece, also when there is no limit to their number. -/
theorem exists_of_splitOn_cons_cons {xs piece next : List α} {pieces : List (List α)}
    (h : splitOn sep xs = piece :: next :: pieces) :
    ∃ rest, xs = piece ++ sep :: rest ∧ sep ∉ piece ∧ splitOn sep rest = next :: pieces := by
  induction xs generalizing piece with
  | nil => cases h
  | cons x xs ih =>
    by_cases hx : x = sep
    · rw [hx, splitOn_cons_self, List.cons.injEq] at h
      obtain ⟨rfl, hrest⟩ := h
      exact ⟨xs, by rw [hx]; rfl, List.not_mem_nil, hrest⟩
    · obtain ⟨first, others, e⟩ := List.exists_cons_of_ne_nil (splitOn_ne_nil sep xs)
      rw [splitOn_cons, if_neg hx, e, List.modifyHead_cons, List.cons.injEq] at h
      obtain ⟨rfl, rfl⟩ := h
      obtain ⟨rest, hxs, hfirst, hrest⟩ := ih e
      refine ⟨rest, by rw [hxs]; rfl, ?_, hrest⟩
      intro hmem
      rcases List.mem_cons.1 hmem with hsep | hmem
      · exact hx hsep.symm
      · exact hfirst hmem

end Split

/-! ## Blanks and digits -/

theorem trim_of_forall_not_blank {cs : List Char} (h : ∀ c ∈ cs, isBlank c = false) :
    trim cs = cs := by
  have hfront : cs.dropWhile isBlank = cs := by
    cases cs with
    | nil => rfl
    | cons c cs => rw [List.dropWhile_cons_of_neg (by simp [h c])]
  have hback : cs.reverse.dropWhile isBlank = cs.reverse := by
    cases e : cs.reverse with
    | nil => rfl
    | cons c rest =>
      have hc : c ∈ cs := List.mem_reverse.1 (e ▸ List.mem_cons_self ..)
      rw [List.dropWhile_cons_of_neg (by simp [h c hc])]
  rw [trim, hfront, dropEndWhile, hback, List.reverse_reverse]

theorem isBlank_of_isDigit {c : Char} (h : c.isDigit = true) : isBlank c = false := by
  simp only [Char.isDigit, Bool.and_eq_true, decide_eq_true_eq, ge_iff_le, UInt32.le_iff_toNat_le]
    at h
  have hlow : 48 ≤ c.toNat := h.1
  have hhigh : c.toNat ≤ 57 := h.2
  simp only [isBlank, inRanges, blankRanges, List.any_cons, List.any_nil, Bool.or_false,
    Bool.or_eq_false_iff, Bool.and_eq_false_iff, decide_eq_false_iff_not]
  omega

theorem trim_digits (n : Nat) : trim (Decimal.digits n) = Decimal.digits n := by
  apply trim_of_forall_not_blank
  intro c hc
  exact isBlank_of_isDigit (List.all_eq_true.1 (Decimal.all_isDigit_digits n) c hc)

/-- What is written reads back, as long as it fits. -/
theorem Decimal.readUInt32?_digits {n : Nat} (h : n < UInt32.size) :
    Decimal.readUInt32? (Decimal.digits n) = some (UInt32.ofNat n) := by
  rw [Decimal.readUInt32?, Decimal.read?_digits]
  exact if_pos h

end Text

/-! ## Taking a line apart and putting it together -/

namespace Header

/-- The line that a header was read from. -/
def text (h : Header) : String :=
  h.path ++ ":" ++ h.line ++ ":" ++ h.column ++ ":" ++ h.severity ++ ":" ++ h.message

/-- Only the message of a header holds colons. -/
structure Separated (h : Header) : Prop where
  path : ':' ∉ h.path.toList
  line : ':' ∉ h.line.toList
  column : ':' ∉ h.column.toList
  severity : ':' ∉ h.severity.toList

theorem toList_text (h : Header) :
    h.text.toList =
      h.path.toList ++ ':' :: (h.line.toList ++ ':' :: (h.column.toList ++
        ':' :: (h.severity.toList ++ ':' :: h.message.toList))) := by
  simp [text]

theorem splitFirst_text {h : Header} (hs : h.Separated) :
    Text.splitFirst ':' fieldCount h.text.toList =
      [h.path.toList, h.line.toList, h.column.toList, h.severity.toList, h.message.toList] := by
  rw [toList_text, fieldCount, Text.splitFirst_append_cons hs.path,
    Text.splitFirst_append_cons hs.line, Text.splitFirst_append_cons hs.column,
    Text.splitFirst_append_cons hs.severity]
  rfl

/-- **The fields of a line are a header exactly when the line is the text of that header.** -/
theorem ofLine_eq_ok_iff {line : String} {h : Header} :
    ofLine line = .ok h ↔ line = h.text ∧ h.Separated := by
  constructor
  · intro hline
    unfold ofLine at hline
    dsimp only at hline
    split at hline
    · next path lineNumber column severity message e =>
      cases hline
      have hpieces := congrArg (List.map String.toList) e
      rw [List.map_map, show String.toList ∘ String.ofList = id from funext fun _ => by simp,
        List.map_id] at hpieces
      obtain ⟨rest₁, e₁, hpath, h₁⟩ := Text.exists_of_splitFirst_cons_cons hpieces
      obtain ⟨rest₂, e₂, hnumber, h₂⟩ := Text.exists_of_splitFirst_cons_cons h₁
      obtain ⟨rest₃, e₃, hcolumn, h₃⟩ := Text.exists_of_splitFirst_cons_cons h₂
      obtain ⟨rest₄, e₄, hseverity, h₄⟩ := Text.exists_of_splitFirst_cons_cons h₃
      have hmessage : rest₄ = message.toList := by simpa [Text.splitFirst] using h₄
      refine ⟨String.toList_inj.1 ?_, hpath, hnumber, hcolumn, hseverity⟩
      rw [toList_text, e₁, e₂, e₃, e₄, hmessage]
    · cases hline
  · rintro ⟨rfl, hs⟩
    simp [ofLine, splitFirst_text hs]

/-- Whether the text of a header opens a block is up to its severity. -/
theorem isBlockStart_text {h : Header} (hs : h.Separated) :
    isBlockStart h.text = severityTokens.contains (Text.trimmed h.severity) := by
  obtain ⟨piece, pieces, e⟩ :=
    List.exists_cons_of_ne_nil (Text.splitOn_ne_nil ':' h.message.toList)
  rw [isBlockStart, toList_text, Text.splitOn_append_cons, Text.splitOn_append_cons,
    Text.splitOn_append_cons, Text.splitOn_append_cons, Text.splitOn_of_not_mem hs.path,
    Text.splitOn_of_not_mem hs.line, Text.splitOn_of_not_mem hs.column,
    Text.splitOn_of_not_mem hs.severity, e]
  rfl

end Header

/-! ## Positions -/

namespace Block

/-- A position that was read is not the largest number: the header counts from 1. -/
theorem readPosition_lt {field : PositionField} {raw : String} {position : UInt32}
    (h : readPosition field raw = .ok position) : position < maxPosition := by
  unfold readPosition at h
  split at h
  · next value _ =>
    cases h
    split
    · decide
    · next hvalue =>
      have hpos : 0 < value.toNat := Nat.pos_of_ne_zero fun e => hvalue (UInt32.toNat_inj.1 e)
      have hlt := value.toNat_lt
      have hmax : maxPosition.toNat = 2 ^ 32 - 1 := rfl
      have hone : (1 : UInt32).toNat = 1 := rfl
      have hle : 1 ≤ value := UInt32.le_iff_toNat_le.2 hpos
      rw [UInt32.lt_iff_toNat_lt, UInt32.toNat_sub_of_le _ _ hle]
      omega
  · cases h

/-- A position below the largest number reads back from the way it is shown. -/
theorem readPosition_oneBased (field : PositionField) {position : UInt32}
    (h : position < maxPosition) :
    readPosition field (Diagnostic.oneBased position) = .ok position := by
  have hlt : position.toNat + 1 < UInt32.size := by
    have := UInt32.lt_iff_toNat_lt.1 h
    have hmax : maxPosition.toNat = UInt32.size - 1 := rfl
    omega
  have hsucc : (UInt32.ofNat (position.toNat + 1)).toNat = position.toNat + 1 :=
    UInt32.toNat_ofNat_of_lt' hlt
  have hne : UInt32.ofNat (position.toNat + 1) ≠ 0 := by
    intro e
    have := congrArg UInt32.toNat e
    rw [hsucc, UInt32.toNat_zero] at this
    omega
  have hpred : UInt32.ofNat (position.toNat + 1) - 1 = position := by
    rw [UInt32.ofNat_add, UInt32.ofNat_toNat]
    exact UInt32.add_sub_cancel ..
  rw [readPosition, Diagnostic.oneBased, Text.Decimal.text, String.toList_ofList, Text.trim_digits,
    Text.Decimal.readUInt32?_digits hlt]
  dsimp only
  rw [if_neg hne, hpred]

end Block

end BuildDiagnostics
