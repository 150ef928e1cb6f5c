import BuildDiagnostics.Text.Utf8

/-!
# Variables in settings

A reference `${NAME}` in a setting stands for the value of an environment variable. A `Template` is
a text taken apart at its references; expanding it is one pass from left to right, so values are not
expanded again, and all that is no complete reference stands for itself.
-/

namespace BuildDiagnostics

/-- The environment: the text of each variable that is set to a text. -/
abbrev Environment := String → Option String

/-- The environment with the given variables, the first of one name counting. It is a list of
entries `NAME=VALUE`, and a name stands for what follows it and an equals sign in an entry: so a
name may hold an equals sign itself and reach into the value of a shorter one. A value that is no
text counts as not set. -/
def Environment.ofEntries (entries : List (String × List UInt8)) : Environment := fun name =>
  let before := Text.Utf8.encode (name ++ "=")
  let after? (entry : List UInt8) :=
    if before.isPrefixOf entry then some (entry.drop before.length) else none
  (entries.findSome? fun (name, value) => after? (Text.Utf8.encode (name ++ "=") ++ value)).bind
    Text.Utf8.ofBytes?

/-- What a reference to a variable stands for: nothing when the name is empty or not set. -/
def Environment.valueOf (env : Environment) (name : List Char) : List Char :=
  if name.isEmpty then [] else ((env (String.ofList name)).getD "").toList

/-- A reference, and the text between it and the one before it. -/
structure Reference where
  before : List Char
  /-- What stands between the braces. It holds no closing brace. -/
  name : List Char
  deriving DecidableEq, Repr

/-- A reference as it is written, and the text before it. -/
def Reference.text (r : Reference) : List Char :=
  r.before ++ '$' :: '\x7b' :: r.name ++ ['\x7d']

/-- A text taken apart at its references. -/
structure Template where
  references : List Reference := []
  /-- The text after the last reference. -/
  rest : List Char := []
  deriving DecidableEq, Repr

namespace Template

/-- The template with one more character in front. -/
def cons (c : Char) (t : Template) : Template :=
  match t.references with
  | [] => { t with rest := c :: t.rest }
  | r :: more => { t with references := { r with before := c :: r.before } :: more }

/-- Takes a text apart. A name reaches to the first closing brace, and an opening that no closing
brace follows is no reference. -/
def ofChars : List Char → Template
  | [] => {}
  | '$' :: '\x7b' :: cs =>
    match _h : cs.dropWhile (· != '\x7d') with
    | [] => { rest := '$' :: '\x7b' :: cs }
    | _ :: after =>
      let t := ofChars after
      { t with references := { before := [], name := cs.takeWhile (· != '\x7d') } :: t.references }
  | c :: cs => (ofChars cs).cons c
termination_by cs => cs.length
decreasing_by
  · have := (List.dropWhile_suffix (l := cs) (· != '\x7d')).length_le
    simp only [_h, List.length_cons] at this ⊢
    omega
  · simp

/-- The text that a template was taken from. -/
def text (t : Template) : List Char :=
  t.references.flatMap Reference.text ++ t.rest

/-- The text with the value of its variable in the place of each reference. -/
def expand (t : Template) (env : Environment) : List Char :=
  (t.references.flatMap fun r => r.before ++ env.valueOf r.name) ++ t.rest

/-- The names of the variables that are referred to. -/
def names (t : Template) : List String :=
  t.references.map fun r => String.ofList r.name

theorem text_cons (c : Char) (t : Template) : (t.cons c).text = c :: t.text := by
  unfold cons text
  split <;> simp_all [Reference.text]

end Template

/-- The text with every reference replaced by what it stands for. -/
def Environment.expand (env : Environment) (value : String) : String :=
  String.ofList ((Template.ofChars value.toList).expand env)

end BuildDiagnostics
