import BuildDiagnostics.Json
import Mathlib.Data.List.Forall2
import Mathlib.Data.List.TakeWhile

/-!
# The tokens of a JSON text

A reader of JSON first takes the text apart into tokens. `tokens?` does so for the strings and
numbers that `print` writes: blanks between tokens are dropped, a run of digits is a number, and a
quote reaches to the next quote that no backslash escapes. Each kind of token is read off the front
of any text (`tokens?_punctuation`, `tokens?_quote`, `tokens?_digits`), the only condition being that
a number is followed by something else than a digit. `lexes_print` puts these together: the tokens of
a printed value are `tokens`, which know nothing of a layout, as long as the layout puts blanks only.
-/

namespace BuildDiagnostics.Json

/-! ## Values and what is nested in them -/

theorem sizeOf_lt_of_mem_members {members : List (String × Json)} {member : String × Json}
    (h : member ∈ members) : sizeOf member.2 < sizeOf (object members) := by
  have hmember := List.sizeOf_lt_of_mem h
  obtain ⟨key, value⟩ := member
  simp only [Prod.mk.sizeOf_spec, object.sizeOf_spec] at hmember ⊢
  omega

/-- Induction on values: what holds of all items, or of the values of all members, may be used. -/
@[induction_eliminator]
theorem nested_induction {motive : Json → Prop} (number : ∀ n, motive (number n))
    (text : ∀ s, motive (text s))
    (array : ∀ items, (∀ value ∈ items, motive value) → motive (array items))
    (object : ∀ members, (∀ member ∈ members, motive member.2) → motive (object members)) :
    ∀ value, motive value
  | .number n => number n
  | .text s => text s
  | .array items => array items fun value _ => nested_induction number text array object value
  | .object members =>
    object members fun member _ => nested_induction number text array object member.2
termination_by value => value
decreasing_by
  · decreasing_tactic
  · exact sizeOf_lt_of_mem_members ‹_›

/-! ## Tokens -/

/-- The smallest parts of a JSON text. -/
inductive Token
  | openArray
  | closeArray
  | openObject
  | closeObject
  | comma
  | colon
  | number (n : Nat)
  | text (s : String)
  deriving DecidableEq, Repr

/-- The token that is a single character. -/
def Token.ofPunctuation? : Char → Option Token
  | '[' => some openArray
  | ']' => some closeArray
  | '\x7b' => some openObject
  | '\x7d' => some closeObject
  | ',' => some comma
  | ':' => some colon
  | _ => none

/-- The tokens of a value. -/
def tokens : Json → List Token
  | number n => [.number n]
  | text s => [.text s]
  | array items => .openArray :: List.intercalate [.comma] (items.map tokens) ++ [.closeArray]
  | object members =>
    .openObject :: List.intercalate [.comma]
      (members.map fun member => .text member.1 :: .colon :: tokens member.2) ++ [.closeObject]
termination_by value => value
decreasing_by
  · decreasing_tactic
  · exact sizeOf_lt_of_mem_members ‹_›

/-- Whether a character may stand between two tokens. -/
def isBlank (c : Char) : Bool :=
  c = ' ' || c = '\t' || c = '\n' || c = '\r'

/-- What a character after a backslash stands for. -/
def unescape? : Char → Option Char
  | '"' => some '"'
  | '\\' => some '\\'
  | '/' => some '/'
  | 'b' => some '\x08'
  | 't' => some '\t'
  | 'n' => some '\n'
  | 'f' => some '\x0c'
  | 'r' => some '\r'
  | _ => none

/-- The string that begins after a quote, and what follows its closing quote. Of the escapes with a
code point only those of two digits are read. -/
def unquote? : List Char → Option (List Char × List Char)
  | '"' :: rest => some ([], rest)
  | '\\' :: 'u' :: '0' :: '0' :: high :: low :: rest =>
    if Text.Hexadecimal.isDigit high && Text.Hexadecimal.isDigit low then
      (unquote? rest).map fun (cs, rest) =>
        (Char.ofNat (Text.Hexadecimal.ofDigits 16 [high, low]) :: cs, rest)
    else none
  | '\\' :: c :: rest =>
    (unescape? c).bind fun c => (unquote? rest).map fun (cs, rest) => (c :: cs, rest)
  | c :: rest => (unquote? rest).map fun (cs, rest) => (c :: cs, rest)
  | [] => none

theorem length_lt_of_unquote? {input cs rest : List Char} (h : unquote? input = some (cs, rest)) :
    rest.length < input.length := by
  fun_induction unquote? input generalizing cs with
  | case1 => simp_all
  | case2 high low rest' _ ih =>
    obtain ⟨⟨cs', rest''⟩, h', he⟩ := Option.map_eq_some_iff.1 h
    cases he
    have := ih h'
    simp only [List.length_cons]
    omega
  | case3 => cases h
  | case4 c rest' _ ih =>
    obtain ⟨c', -, h⟩ := Option.bind_eq_some_iff.1 h
    obtain ⟨⟨cs', rest''⟩, h', he⟩ := Option.map_eq_some_iff.1 h
    cases he
    have := ih h'
    simp only [List.length_cons]
    omega
  | case5 c rest' _ _ _ ih =>
    obtain ⟨⟨cs', rest''⟩, h', he⟩ := Option.map_eq_some_iff.1 h
    cases he
    exact Nat.lt_succ_of_lt (ih h')
  | case6 => cases h

/-- The tokens of a text, if it consists of tokens and blanks. -/
def tokens? : List Char → Option (List Token)
  | [] => some []
  | c :: rest =>
    if isBlank c then tokens? rest
    else if c = '"' then
      match h : unquote? rest with
      | some (cs, rest') =>
        have := length_lt_of_unquote? h
        (tokens? rest').map (.text (String.ofList cs) :: ·)
      | none => none
    else if c.isDigit then
      have := (rest.dropWhile_sublist Char.isDigit).length_le
      (tokens? (rest.dropWhile Char.isDigit)).map
        (.number (Text.Decimal.ofDigits (c :: rest.takeWhile Char.isDigit)) :: ·)
    else
      (Token.ofPunctuation? c).bind fun token => (tokens? rest).map (token :: ·)
termination_by input => input.length
decreasing_by
  all_goals simp only [List.length_cons]
  all_goals omega

/-! ## One token off the front -/

section Front

variable (rest : List Char)

theorem tokens?_blanks {cs : List Char} (h : ∀ c ∈ cs, isBlank c = true) :
    tokens? (cs ++ rest) = tokens? rest := by
  induction cs with
  | nil => rfl
  | cons c cs ih =>
    rw [List.cons_append, tokens?, if_pos (h c List.mem_cons_self)]
    exact ih fun c' hc' => h c' (List.mem_cons_of_mem c hc')

theorem plain_of_ofPunctuation? {c : Char} {token : Token}
    (h : Token.ofPunctuation? c = some token) :
    isBlank c = false ∧ c ≠ '"' ∧ c.isDigit = false := by
  unfold Token.ofPunctuation? at h
  split at h <;> first | decide | cases h

theorem tokens?_punctuation {c : Char} {token : Token} (h : Token.ofPunctuation? c = some token) :
    tokens? (c :: rest) = (tokens? rest).map (token :: ·) := by
  obtain ⟨hblank, hquote, hdigit⟩ := plain_of_ofPunctuation? h
  rw [tokens?, if_neg (by simp [hblank]), if_neg hquote, if_neg (by simp [hdigit]), h]
  rfl

/-- The text does not go on with a digit. -/
def NoDigit (cs : List Char) : Prop :=
  ∀ c ∈ cs.head?, c.isDigit = false

theorem tokens?_digits {rest : List Char} (h : NoDigit rest) (n : Nat) :
    tokens? (Text.Decimal.digits n ++ rest) = (tokens? rest).map (.number n :: ·) := by
  have hall : ∀ c ∈ Text.Decimal.digits n, c.isDigit = true :=
    List.all_eq_true.1 (Text.Decimal.all_isDigit_digits n)
  obtain ⟨c, cs, hcs⟩ := List.exists_cons_of_ne_nil (Text.Decimal.digits_ne_nil n)
  rw [hcs] at hall
  have hc : c.isDigit = true := hall c List.mem_cons_self
  have hrun : ∀ c' ∈ cs, c'.isDigit = true := fun c' hc' => hall c' (List.mem_cons_of_mem c hc')
  have hplain : isBlank c = false ∧ c ≠ '"' := by
    refine ⟨?_, ?_⟩
    · cases hblank : isBlank c with
      | false => rfl
      | true =>
        simp only [isBlank, Bool.or_eq_true, decide_eq_true_eq] at hblank
        rcases hblank with ((rfl | rfl) | rfl) | rfl <;> cases hc
    · rintro rfl
      cases hc
  have hstop : rest.dropWhile Char.isDigit = rest ∧ rest.takeWhile Char.isDigit = [] := by
    cases rest with
    | nil => exact ⟨rfl, rfl⟩
    | cons d rest => simp [h d rfl]
  rw [hcs, List.cons_append, tokens?, if_neg (by simp [hplain.1]), if_neg hplain.2, if_pos hc,
    List.dropWhile_append_of_pos hrun, List.takeWhile_append_of_pos hrun, hstop.1, hstop.2,
    List.append_nil, ← hcs, Text.Decimal.ofDigits_digits]

/-! ### Strings -/

theorem unquote?_backslash {c d : Char} (h : unescape? c = some d) :
    unquote? ('\\' :: c :: rest) = (unquote? rest).map fun (cs, rest) => (d :: cs, rest) := by
  unfold unescape? at h
  split at h
  all_goals cases h
  all_goals simp [unquote?, unescape?]

theorem unquote?_plain {c : Char} (hquote : c ≠ '"') (hbackslash : c ≠ '\\') :
    unquote? (c :: rest) = (unquote? rest).map fun (cs, rest) => (c :: cs, rest) := by
  rw [unquote?.eq_def]
  split <;> simp_all

theorem isDigit_lower : ∀ n < 0x20,
    Text.Hexadecimal.isDigit (Nat.digitChar (n / 16)) = true ∧
      Text.Hexadecimal.isDigit (Nat.digitChar (n % 16)) = true ∧
      Text.Hexadecimal.ofDigits 16 (Text.Hexadecimal.lower n) = n := by
  decide

theorem unquote?_code {n : Nat} (h : n < 0x20) :
    unquote? (['\\', 'u', '0', '0'] ++ Text.Hexadecimal.lower n ++ rest) =
      (unquote? rest).map fun (cs, rest) => (Char.ofNat n :: cs, rest) := by
  obtain ⟨hhigh, hlow, hvalue⟩ := isDigit_lower n h
  rw [Text.Hexadecimal.lower] at hvalue ⊢
  simp only [List.cons_append, List.nil_append]
  rw [unquote?, hhigh, hlow, hvalue]
  rfl

/-- A character is read back from its escape, whatever follows. -/
theorem unquote?_escape (c : Char) :
    unquote? (escape c ++ rest) = (unquote? rest).map fun (cs, rest) => (c :: cs, rest) := by
  have hshort : ∀ d e, c = e → unescape? d = some e →
      unquote? (['\\', d] ++ rest) = (unquote? rest).map fun (cs, rest) => (c :: cs, rest) := by
    rintro d _ rfl hd
    exact unquote?_backslash rest hd
  unfold escape
  split
  · next h => exact hshort _ _ h rfl
  split
  · next h => exact hshort _ _ h rfl
  split
  · next h => exact hshort _ _ h rfl
  split
  · next h => exact hshort _ _ h rfl
  split
  · next h => exact hshort _ _ h rfl
  split
  · next h => exact hshort _ _ h rfl
  split
  · next h => exact hshort _ _ h rfl
  split
  · next h =>
    rw [unquote?_code rest h, Char.ofNat_toNat]
  · next hquote hbackslash _ _ _ _ _ _ => exact unquote?_plain rest hquote hbackslash

theorem unquote?_flatMap_escape (cs : List Char) :
    unquote? (cs.flatMap escape ++ '"' :: rest) = some (cs, rest) := by
  induction cs with
  | nil => rw [List.flatMap_nil, List.nil_append, unquote?]
  | cons c cs ih =>
    rw [List.flatMap_cons, List.append_assoc, unquote?_escape, ih]
    rfl

theorem tokens?_quote (s : String) :
    tokens? (quote s ++ rest) = (tokens? rest).map (.text s :: ·) := by
  have hquote : quote s ++ rest = '"' :: (s.toList.flatMap escape ++ '"' :: rest) := by
    simp [quote]
  rw [hquote, tokens?, if_neg (by decide), if_pos rfl]
  split
  · next cs rest' h =>
    rw [unquote?_flatMap_escape] at h
    cases h
    rw [String.ofList_toList]
  · next h =>
    rw [unquote?_flatMap_escape] at h
    cases h

end Front

/-! ## The tokens of printed values -/

/-- A layout whose parts are blanks has no influence on the tokens. -/
structure Layout.Blank (layout : Layout) : Prop where
  lineBreak : ∀ depth, ∀ c ∈ layout.lineBreak depth, isBlank c = true
  afterColon : ∀ c ∈ layout.afterColon, isBlank c = true

theorem Layout.blank_compact : Layout.compact.Blank where
  lineBreak := by
    intro depth c hc
    cases hc
  afterColon := by
    intro c hc
    cases hc

theorem Layout.blank_indented : Layout.indented.Blank where
  lineBreak := by
    intro depth c hc
    rcases List.mem_cons.1 hc with rfl | hc
    · rfl
    · rw [List.eq_of_mem_replicate hc]
      rfl
  afterColon := by
    intro c hc
    rw [List.mem_singleton.1 hc]
    rfl

theorem not_isDigit_of_isBlank {c : Char} (h : isBlank c = true) : c.isDigit = false := by
  simp only [isBlank, Bool.or_eq_true, decide_eq_true_eq] at h
  rcases h with ((rfl | rfl) | rfl) | rfl <;> rfl

theorem NoDigit.blanks {cs : List Char} (h : ∀ c ∈ cs, isBlank c = true) {rest : List Char}
    (hrest : NoDigit rest) : NoDigit (cs ++ rest) := by
  cases cs with
  | nil => exact hrest
  | cons c cs =>
    rintro _ ⟨⟩
    exact not_isDigit_of_isBlank (h c List.mem_cons_self)

/-- The text `cs` is read as the tokens `ts`, unless the digits at its end go on after it. -/
def Lexes (cs : List Char) (ts : List Token) : Prop :=
  ∀ rest, NoDigit rest → tokens? (cs ++ rest) = (tokens? rest).map (ts ++ ·)

theorem Lexes.intercalate {blanks : List Char} (hblanks : ∀ c ∈ blanks, isBlank c = true)
    {items : List (List Char)} {ts : List (List Token)} (h : List.Forall₂ Lexes items ts) :
    Lexes (List.intercalate (',' :: blanks) items) (List.intercalate [.comma] ts) := by
  induction h with
  | nil =>
    intro rest _
    simp
  | @cons item t items ts hitem hitems ih =>
    intro rest hrest
    cases hitems with
    | nil => simpa using hitem rest hrest
    | cons hnext hitems =>
      have hcomma (cs : List Char) : NoDigit (',' :: cs) := by
        rintro _ ⟨⟩
        rfl
      rw [List.intercalate_cons_cons, List.intercalate_cons_cons]
      simp only [List.append_assoc, List.cons_append, List.nil_append]
      rw [hitem _ (hcomma _), tokens?_punctuation _ rfl, tokens?_blanks _ hblanks, ih rest hrest,
        Option.map_map, Option.map_map]
      rfl

section Print

variable {layout : Layout} (hlayout : layout.Blank)
include hlayout

theorem Lexes.bracketed (depth : Nat) {opening closing : Char} {first last : Token}
    (hfirst : Token.ofPunctuation? opening = some first)
    (hlast : Token.ofPunctuation? closing = some last) {items : List (List Char)}
    {ts : List (List Token)} (h : List.Forall₂ Lexes items ts) :
    Lexes (bracketed layout depth opening closing items)
      (first :: List.intercalate [.comma] ts ++ [last]) := by
  intro rest hrest
  cases h with
  | nil =>
    show tokens? (opening :: closing :: rest) = _
    rw [tokens?_punctuation _ hfirst, tokens?_punctuation _ hlast, Option.map_map]
    rfl
  | cons hitem hitems =>
    have hclose : NoDigit (layout.lineBreak depth ++ (closing :: rest)) := by
      apply NoDigit.blanks (hlayout.lineBreak depth)
      rintro _ ⟨⟩
      exact (plain_of_ofPunctuation? hlast).2.2
    rw [Json.bracketed]
    · simp only [List.append_assoc, List.cons_append, List.nil_append]
      rw [tokens?_punctuation _ hfirst, tokens?_blanks _ (hlayout.lineBreak _),
        Lexes.intercalate (hlayout.lineBreak _) (.cons hitem hitems) _ hclose,
        tokens?_blanks _ (hlayout.lineBreak _), tokens?_punctuation _ hlast]
      simp [Function.comp_def]
    · rintro ⟨⟩

/-- **A printed value is read as its tokens**, whatever blanks the layout puts between them. -/
theorem lexes_print (value : Json) : ∀ depth, Lexes (print layout depth value) value.tokens := by
  induction value with
  | number n =>
    intro depth rest hrest
    rw [print, tokens, tokens?_digits hrest]
    rfl
  | text s =>
    intro depth rest _
    rw [print, tokens, tokens?_quote]
    rfl
  | array items ih =>
    intro depth
    rw [print, tokens]
    apply Lexes.bracketed hlayout depth rfl rfl
    rw [List.forall₂_map_left_iff, List.forall₂_map_right_iff, List.forall₂_same]
    intro value hvalue
    exact ih value hvalue (depth + 1)
  | object members ih =>
    intro depth
    rw [print, tokens]
    apply Lexes.bracketed hlayout depth rfl rfl
    rw [List.forall₂_map_left_iff, List.forall₂_map_right_iff, List.forall₂_same]
    intro member hmember rest hrest
    simp only [List.append_assoc, List.cons_append]
    rw [tokens?_quote, tokens?_punctuation _ rfl, tokens?_blanks _ hlayout.afterColon,
      ih member hmember (depth + 1) rest hrest, Option.map_map, Option.map_map]
    rfl

theorem tokens?_print (value : Json) {blanks : List Char} (h : ∀ c ∈ blanks, isBlank c = true) :
    tokens? (print layout 0 value ++ blanks) = some value.tokens := by
  have hend : NoDigit [] := by rintro _ ⟨⟩
  have hblanks : NoDigit blanks := by
    have := hend.blanks h
    rwa [List.append_nil] at this
  have hnone := tokens?_blanks [] h
  rw [List.append_nil] at hnone
  rw [lexes_print hlayout value 0 blanks hblanks, hnone, tokens?, Option.map_some, List.append_nil]

end Print

end BuildDiagnostics.Json
