import BuildDiagnostics.Settings.Expansion
import Mathlib.Data.List.Infix
import Mathlib.Data.List.TakeWhile

/-!
# The grammar of references

What counts as a reference is said here without a scan. `Template.Reads` lists what a template must
be to be a text taken apart: its parts make up the text, no name holds a closing brace, no text before
a reference holds an opening, and the text after the last reference holds no reference any more
(`Unreferenced`). Every text can be read in exactly one way (`existsUnique_reads`). Taking a text apart
finds it: up to the first opening that is closed it goes on in one step (`ofChars_reference`), and
where there is none it ends (`ofChars_unreferenced`). So a text is expanded by its grammar.
-/

namespace BuildDiagnostics

namespace Template

/-- What a reference begins with. -/
def opening : List Char := ['$', '\x7b']

/-- Text that holds no reference: it has no opening, or no closing brace after the first one. -/
def Unreferenced (cs : List Char) : Prop :=
  ¬ opening <:+: cs ∨
    ∃ front back, cs = front ++ opening ++ back ∧ ¬ opening <:+: front ∧ '\x7d' ∉ back

/-- The template is the text, taken apart at all of its references. -/
structure Reads (t : Template) (cs : List Char) : Prop where
  text : t.text = cs
  name : ∀ r ∈ t.references, '\x7d' ∉ r.name
  before : ∀ r ∈ t.references, ¬ opening <:+: r.before
  rest : Unreferenced t.rest

/-- The template with one more reference in front. -/
def consReference (r : Reference) (t : Template) : Template :=
  { t with references := r :: t.references }

theorem text_consReference (r : Reference) (t : Template) :
    (consReference r t).text = r.text ++ t.text := by
  rw [text, text, consReference, List.flatMap_cons, List.append_assoc]

theorem cons_consReference (c : Char) (r : Reference) (t : Template) :
    (consReference r t).cons c = consReference { r with before := c :: r.before } t := rfl

theorem cons_rest (c : Char) (cs : List Char) :
    cons c { rest := cs } = { rest := c :: cs } := rfl

/-! ## One step of taking apart -/

theorem not_opening_infix_of_cons {c : Char} {cs : List Char} (h : ¬ opening <:+: c :: cs) :
    ¬ opening <:+: cs :=
  fun hcs => h (hcs.trans (List.suffix_cons c cs).isInfix)

/-- A character that begins no opening belongs to the text before the next reference. -/
theorem ofChars_cons {c : Char} {cs : List Char} (h : ¬ opening <+: c :: cs) :
    ofChars (c :: cs) = (ofChars cs).cons c := by
  rw [ofChars]
  rintro cs' rfl rfl
  exact h (List.prefix_append opening cs')

/-- No opening begins in a text without one, and none where it meets the next one. -/
theorem not_opening_begins {c : Char} {front : List Char} (h : ¬ opening <:+: c :: front)
    (rest : List Char) : ¬ opening <+: c :: (front ++ opening ++ rest) := by
  intro hprefix
  obtain ⟨rfl, hbrace⟩ := List.cons_prefix_cons.1 hprefix
  cases front with
  | nil => exact absurd (List.cons_prefix_cons.1 hbrace).1 (by decide)
  | cons d front =>
    obtain ⟨rfl, -⟩ := List.cons_prefix_cons.1 hbrace
    exact h (List.prefix_append opening front).isInfix

theorem ofChars_opening_of_closed {name : List Char} (hname : '\x7d' ∉ name) (rest : List Char) :
    ofChars (opening ++ (name ++ '\x7d' :: rest)) =
      consReference { before := [], name } (ofChars rest) := by
  have hall : ∀ c ∈ name, (c != '\x7d') = true := by
    intro c hc
    rw [bne_iff_ne]
    rintro rfl
    exact hname hc
  have htake : (name ++ '\x7d' :: rest).takeWhile (· != '\x7d') = name := by
    rw [List.takeWhile_append_of_pos hall, List.takeWhile_cons_of_neg (by decide), List.append_nil]
  have hdrop : (name ++ '\x7d' :: rest).dropWhile (· != '\x7d') = '\x7d' :: rest := by
    rw [List.dropWhile_append_of_pos hall, List.dropWhile_cons_of_neg (by decide)]
  show ofChars ('$' :: '\x7b' :: (name ++ '\x7d' :: rest)) = _
  rw [ofChars]
  split
  · next h => rw [hdrop] at h; cases h
  · next after h =>
    rw [hdrop] at h
    cases h
    rw [htake]
    rfl

theorem ofChars_opening_of_unclosed {back : List Char} (h : '\x7d' ∉ back) :
    ofChars (opening ++ back) = { rest := opening ++ back } := by
  have hdrop : back.dropWhile (· != '\x7d') = [] := by
    rw [List.dropWhile_eq_nil_iff]
    intro c hc
    rw [bne_iff_ne]
    rintro rfl
    exact h hc
  show ofChars ('$' :: '\x7b' :: back) = _
  rw [ofChars]
  split
  · rfl
  · next after hafter => rw [hdrop] at hafter; cases hafter

/-- Where a closing brace follows, the name is what comes before the first one. -/
theorem closed_of_dropWhile {cs after : List Char} {c : Char}
    (h : cs.dropWhile (· != '\x7d') = c :: after) :
    '\x7d' ∉ cs.takeWhile (· != '\x7d') ∧
      cs = cs.takeWhile (· != '\x7d') ++ '\x7d' :: after := by
  have hc : c = '\x7d' := by
    have hstop := List.head?_dropWhile_not (· != '\x7d') cs
    rw [h] at hstop
    simpa using hstop
  have hparts := List.takeWhile_append_dropWhile (p := (· != '\x7d')) (l := cs)
  rw [h, hc] at hparts
  exact ⟨fun hmem => absurd (List.mem_takeWhile_imp hmem) (by decide), hparts.symm⟩

/-- **One step.** The first opening that is closed gives a reference, named by all up to the first
closing brace; what comes after it is taken apart on its own. -/
theorem ofChars_reference {before name : List Char} (hbefore : ¬ opening <:+: before)
    (hname : '\x7d' ∉ name) (rest : List Char) :
    ofChars (before ++ opening ++ (name ++ '\x7d' :: rest)) =
      consReference { before, name } (ofChars rest) := by
  induction before with
  | nil => exact ofChars_opening_of_closed hname rest
  | cons c before ih =>
    rw [List.cons_append, List.cons_append, ofChars_cons (not_opening_begins hbefore _),
      ih (not_opening_infix_of_cons hbefore), cons_consReference]

/-- **The last step.** Text without a reference is left as it is. -/
theorem ofChars_unreferenced {cs : List Char} (h : Unreferenced cs) : ofChars cs = { rest := cs } := by
  rcases h with h | ⟨front, back, rfl, hfront, hback⟩
  · induction cs with
    | nil => rw [ofChars]
    | cons c cs ih =>
      rw [ofChars_cons fun hprefix => h hprefix.isInfix, ih (not_opening_infix_of_cons h), cons_rest]
  · induction front with
    | nil => exact ofChars_opening_of_unclosed hback
    | cons c front ih =>
      rw [List.cons_append, List.cons_append, ofChars_cons (not_opening_begins hfront _),
        ih (not_opening_infix_of_cons hfront), cons_rest]

/-! ## The one reading -/

theorem reads_rest {cs : List Char} (h : Unreferenced cs) : Reads { rest := cs } cs where
  text := rfl
  name := fun _ hr => by cases hr
  before := fun _ hr => by cases hr
  rest := h

theorem Reads.consReference {t : Template} {cs : List Char} (h : t.Reads cs) {r : Reference}
    (hname : '\x7d' ∉ r.name) (hbefore : ¬ opening <:+: r.before) :
    (consReference r t).Reads (r.text ++ cs) where
  text := by rw [text_consReference, h.text]
  name := List.forall_mem_cons.2 ⟨hname, h.name⟩
  before := List.forall_mem_cons.2 ⟨hbefore, h.before⟩
  rest := h.rest

/-- A character that begins no opening goes in front of any reading. -/
theorem Reads.cons {t : Template} {cs : List Char} (h : t.Reads cs) {c : Char}
    (hc : ¬ opening <+: c :: cs) : (t.cons c).Reads (c :: cs) := by
  obtain ⟨references, rest⟩ := t
  have htext := h.text
  cases references with
  | nil =>
    have hrest : rest = cs := htext
    subst hrest
    refine reads_rest ?_
    rcases h.rest with hnone | ⟨front, back, hcs, hfront, hback⟩
    · exact .inl fun hinfix => (List.infix_cons_iff.1 hinfix).elim hc hnone
    · refine .inr ⟨c :: front, back, congrArg (c :: ·) hcs, fun hinfix => ?_, hback⟩
      refine (List.infix_cons_iff.1 hinfix).elim (fun hprefix => hc ?_) hfront
      rw [show rest = front ++ opening ++ back from hcs, List.append_assoc, ← List.cons_append]
      exact hprefix.trans (List.prefix_append ..)
  | cons r references =>
    refine ⟨(text_cons c _).trans (congrArg (c :: ·) htext), ?_, ?_, h.rest⟩
    · exact List.forall_mem_cons.2 (List.forall_mem_cons.1 h.name)
    · obtain ⟨hbefore, hmore⟩ := List.forall_mem_cons.1 h.before
      refine List.forall_mem_cons.2 ⟨fun hinfix => ?_, hmore⟩
      refine (List.infix_cons_iff.1 hinfix).elim (fun hprefix => hc ?_) hbefore
      have hcs : cs = r.before ++ ('$' :: '\x7b' :: r.name ++ ['\x7d'] ++
          Template.text { references, rest }) := by
        rw [← htext]
        simp [Template.text, Reference.text]
      rw [hcs, ← List.cons_append]
      exact hprefix.trans (List.prefix_append ..)

theorem reads_ofChars (cs : List Char) : (ofChars cs).Reads cs := by
  fun_induction ofChars cs with
  | case1 => exact reads_rest (.inl (by decide))
  | case2 cs h =>
    refine reads_rest (.inr ⟨[], cs, rfl, by decide, fun hmem => ?_⟩)
    have hclosed := List.dropWhile_eq_nil_iff.1 h _ hmem
    exact absurd hclosed (by decide)
  | case3 cs c after h t ih =>
    obtain ⟨hname, hcs⟩ := closed_of_dropWhile h
    let r : Reference := { before := [], name := cs.takeWhile (· != '\x7d') }
    have hempty : ¬ opening <:+: [] := by decide
    have htext : '$' :: '\x7b' :: cs = r.text ++ after := by
      conv => lhs; rw [hcs]
      simp [r, Reference.text]
    rw [htext]
    exact ih.consReference (r := r) hname hempty
  | case4 c cs hc ih =>
    refine ih.cons fun hprefix => ?_
    obtain ⟨rfl, cs', hcs'⟩ := List.cons_prefix_cons.1 hprefix
    exact hc cs' rfl hcs'.symm

theorem eq_ofChars_of_reads {t : Template} {cs : List Char} (h : t.Reads cs) : t = ofChars cs := by
  obtain ⟨references, rest⟩ := t
  induction references generalizing cs with
  | nil =>
    have hrest : rest = cs := h.text
    rw [← hrest]
    exact (ofChars_unreferenced h.rest).symm
  | cons r references ih =>
    obtain ⟨hname, hnames⟩ := List.forall_mem_cons.1 h.name
    obtain ⟨hbefore, hbefores⟩ := List.forall_mem_cons.1 h.before
    have hmore := ih ⟨rfl, hnames, hbefores, h.rest⟩
    have hcs : cs = r.before ++ opening ++
        (r.name ++ '\x7d' :: Template.text { references, rest }) := by
      rw [← h.text]
      simp [Template.text, Reference.text, opening]
    rw [hcs, ofChars_reference hbefore hname, ← hmore]
    rfl

/-- Every text has one reading. -/
theorem existsUnique_reads (cs : List Char) : ∃! t : Template, t.Reads cs :=
  ⟨ofChars cs, reads_ofChars cs, fun _ h => eq_ofChars_of_reads h⟩

theorem expand_consReference (env : Environment) (r : Reference) (t : Template) :
    (consReference r t).expand env = r.before ++ env.valueOf r.name ++ t.expand env := by
  rw [expand, expand, consReference, List.flatMap_cons, List.append_assoc]

end Template

open Template (opening Unreferenced)

namespace Environment

theorem valueOf_eq (env : Environment) (name : List Char) :
    env.valueOf name = if name = [] then [] else ((env (String.ofList name)).getD "").toList := by
  cases name <;> rfl

/-- **A text is expanded by its grammar.** Every text is read in exactly one way as references with
text around them, and its expansion has in the place of each reference the value of its variable:
nothing, when the name is empty or not set. So the expansion is made in one pass: what comes after a
reference is expanded on its own, be it the value or the name that looks like another reference; and
text without a reference stays. -/
theorem expand_eq_of_reads (env : Environment) (value : String) :
    let valueOf (name : List Char) : List Char :=
      if name = [] then [] else ((env (String.ofList name)).getD "").toList
    (∃! t : Template, t.Reads value.toList) ∧
      (∀ t : Template, t.Reads value.toList →
        (env.expand value).toList =
          (t.references.flatMap fun r => r.before ++ valueOf r.name) ++ t.rest) ∧
      (∀ before name rest : List Char, ¬ opening <:+: before → '\x7d' ∉ name →
        value.toList = before ++ opening ++ (name ++ '\x7d' :: rest) →
        (env.expand value).toList =
          before ++ valueOf name ++ (env.expand (String.ofList rest)).toList) ∧
      (Unreferenced value.toList → env.expand value = value) := by
  intro valueOf
  have hvalue : valueOf = env.valueOf := funext fun name => (valueOf_eq env name).symm
  refine ⟨Template.existsUnique_reads value.toList, ?_, ?_, ?_⟩
  · intro t ht
    rw [hvalue, expand, String.toList_ofList, ← Template.eq_ofChars_of_reads ht, Template.expand]
  · intro before name rest hbefore hname hcs
    rw [hvalue, expand, expand, String.toList_ofList, String.toList_ofList, String.toList_ofList, hcs,
      Template.ofChars_reference hbefore hname, Template.expand_consReference]
  · intro hplain
    rw [expand, Template.ofChars_unreferenced hplain]
    exact String.ofList_toList

/-- A text whose first name and first value look like references; it ends in an opening. -/
def sampleValue : String := "$$\x7ba$\x7bb\x7d-$\x7b\x7d\x7d$\x7bc"

/-- The variables for it. -/
def sampleEnvironment : Environment := fun name =>
  if name = "a$\x7bb" then some "$\x7bc\x7d" else if name = "c" then some "x" else none

def sampleTemplate : Template where
  references := [⟨['$'], "a$\x7bb".toList⟩, ⟨['-'], []⟩]
  rest := "\x7d$\x7bc".toList

theorem expand_eq_of_reads_sampleValue :
    sampleTemplate.Reads sampleValue.toList ∧
      (sampleEnvironment.expand sampleValue).toList = "$$\x7bc\x7d-\x7d$\x7bc".toList := by
  have hreads : sampleTemplate.Reads sampleValue.toList :=
    { text := by decide +kernel
      name := by decide +kernel
      before := by decide +kernel
      rest := .inr ⟨['\x7d'], ['c'], by decide +kernel, by decide, by decide⟩ }
  obtain ⟨-, hexpand, -, -⟩ := expand_eq_of_reads sampleEnvironment sampleValue
  refine ⟨hreads, (hexpand sampleTemplate hreads).trans ?_⟩
  decide +kernel

end Environment

end BuildDiagnostics
