import BuildDiagnostics.Document.Key
import BuildDiagnostics.Proofs.LexicalPath
import BuildDiagnostics.Proofs.PercentEncoding

/-!
# When two locations are one document

The key of a location is settled by three things: whether its text is a file path at all, whether that
path is absolute after it was joined to the root, and which names the steps to it resolve to. The first
two decide between a file and a verbatim key (`exists_ofLocation_iff`). The third is all that a file's
key depends on, and as the URI can be read back, nothing of it is lost (`ofLocation_identity`). The
results hold for every root, whether its bytes are a text or not, and for every writer of URIs that
does what `FileUri.Writes` asks of it.
-/

namespace BuildDiagnostics

/-! ## File paths -/

/-- The text of the location, blanks around it aside, is that of a file path. -/
structure Location.NamesFile (location : Location) : Prop where
  ne_nil : Text.trim location.raw.toList ≠ []
  isControl : ∀ c ∈ Text.trim location.raw.toList, Text.isControl c = false
  not_bracketed : ¬ ∃ inner, Text.trim location.raw.toList = '<' :: (inner ++ ['>'])

namespace Location

theorem isBracketed_iff {cs : List Char} :
    isBracketed cs = true ↔ ∃ inner, cs = '<' :: (inner ++ ['>']) := by
  rw [isBracketed, Bool.and_eq_true, beq_iff_eq, beq_iff_eq]
  constructor
  · rintro ⟨hhead, hlast⟩
    obtain ⟨front, rfl⟩ := List.getLast?_eq_some_iff.1 hlast
    cases front with
    | nil => exact absurd hhead (by decide)
    | cons c inner =>
      rw [List.cons_append, List.head?_cons, Option.some.injEq] at hhead
      exact ⟨inner, by rw [hhead, List.cons_append]⟩
  · rintro ⟨inner, rfl⟩
    exact ⟨rfl, by rw [← List.cons_append, List.getLast?_concat]⟩

theorem filePath?_eq_some_iff {location : Location} {text : String} :
    location.filePath? = some text ↔
      location.NamesFile ∧ text = Text.trimmed location.raw := by
  rw [filePath?]
  split
  · next h =>
    simp only [Bool.or_eq_true, isBracketed_iff, List.isEmpty_iff, List.any_eq_true] at h
    constructor
    · rintro ⟨⟩
    · rintro ⟨hfile, -⟩
      rcases h with (h | ⟨c, hc, h⟩) | h
      · exact absurd h hfile.ne_nil
      · rw [hfile.isControl c hc] at h
        cases h
      · exact absurd h hfile.not_bracketed
  · next h =>
    simp only [Bool.or_eq_true, isBracketed_iff, List.isEmpty_iff, List.any_eq_true, not_or,
      not_exists, not_and, Bool.not_eq_true] at h
    have hfile : location.NamesFile := ⟨h.1.1, h.1.2, fun ⟨inner, e⟩ => h.2 inner e⟩
    constructor
    · rintro ⟨⟩
      exact ⟨hfile, rfl⟩
    · rintro ⟨-, rfl⟩
      rfl

/-- The text of the location as a path. -/
def path (location : Location) : Path :=
  .ofText (Text.trimmed location.raw)

end Location

/-! ## Keys -/

namespace DocumentKey

section Keys

variable {write : FileUri.Writer} {location : Location} {root : Path}

theorem ofLocation_eq_file_iff {uri : FileUri} :
    ofLocation write location root = .file uri ↔
      location.NamesFile ∧ write (root.join location.path).resolve = some uri := by
  have hbind : location.fileUri? write root = some uri ↔
      location.NamesFile ∧ write (root.join location.path).resolve = some uri := by
    rw [Location.fileUri?, Option.bind_eq_some_iff]
    constructor
    · rintro ⟨text, htext, huri⟩
      obtain ⟨hfile, rfl⟩ := Location.filePath?_eq_some_iff.1 htext
      exact ⟨hfile, huri⟩
    · rintro ⟨hfile, huri⟩
      exact ⟨_, Location.filePath?_eq_some_iff.2 ⟨hfile, rfl⟩, huri⟩
  rw [← hbind, ofLocation]
  split
  · next h => rw [h, file.injEq, Option.some.injEq]
  · next h =>
    rw [h]
    exact ⟨fun e => (nomatch e), fun e => (nomatch e)⟩

theorem ofLocation_eq_verbatim (h : ¬ ∃ uri, ofLocation write location root = .file uri) :
    ofLocation write location root = .verbatim location.raw := by
  rw [ofLocation] at h ⊢
  split
  · next uri e =>
    rw [e] at h
    exact absurd ⟨uri, rfl⟩ h
  · rfl

variable {encoded : UInt8 → Bool} (hwrite : FileUri.Writes encoded write)
include hwrite

theorem exists_ofLocation_iff :
    (∃ uri, ofLocation write location root = .file uri) ↔
      location.NamesFile ∧ (location.path.isAbsolute = true ∨ root.isAbsolute = true) := by
  have habsolute : (write (root.join location.path).resolve).isSome = true ↔
      location.path.isAbsolute = true ∨ root.isAbsolute = true := by
    rw [hwrite.isSome_iff, ← Bool.or_eq_true, ← Path.isAbsolute_join]
    rfl
  rw [← habsolute, Option.isSome_iff_exists]
  constructor
  · rintro ⟨uri, h⟩
    obtain ⟨hfile, huri⟩ := ofLocation_eq_file_iff.1 h
    exact ⟨hfile, uri, huri⟩
  · rintro ⟨hfile, uri, huri⟩
    exact ⟨uri, ofLocation_eq_file_iff.2 ⟨hfile, huri⟩⟩

/-- The path of a file key is absolute, and its names are read back from the URI. -/
theorem names_of_ofLocation (hencoded : FileUri.Separates encoded) {uri : FileUri}
    (h : ofLocation write location root = .file uri) :
    (root.join location.path).resolve.absolute = true ∧
      uri.segments.map FileUri.percentDecode = (root.join location.path).resolve.names := by
  have huri := (ofLocation_eq_file_iff.1 h).2
  refine ⟨(hwrite.isSome_iff _).1 (Option.isSome_iff_exists.2 ⟨uri, huri⟩), ?_⟩
  exact FileUri.percentDecode_segments hencoded hwrite huri (Path.nil_not_mem_resolve _)

end Keys

theorem eq_iff_names_eq {encoded : UInt8 → Bool} {write : FileUri.Writer}
    (hencoded : FileUri.Separates encoded) (hwrite : FileUri.Writes encoded write)
    {location location' : Location} {root root' : Path} {uri uri' : FileUri}
    (h : ofLocation write location root = .file uri)
    (h' : ofLocation write location' root' = .file uri') :
    uri = uri' ↔
      (root.join location.path).resolve.names = (root'.join location'.path).resolve.names := by
  obtain ⟨habsolute, hnames⟩ := names_of_ofLocation hwrite hencoded h
  obtain ⟨habsolute', hnames'⟩ := names_of_ofLocation hwrite hencoded h'
  constructor
  · rintro rfl
    exact hnames.symm.trans hnames'
  · intro e
    -- both paths are absolute, so their names are all there is to them
    have hresolved : (root.join location.path).resolve = (root'.join location'.path).resolve := by
      cases hr : (root.join location.path).resolve with
      | mk absolute names =>
        cases hr' : (root'.join location'.path).resolve with
        | mk absolute' names' =>
          rw [hr, hr'] at e
          rw [hr] at habsolute
          rw [hr'] at habsolute'
          exact congrArg₂ Path.Resolved.mk (habsolute.trans habsolute'.symm) e
    have huri := (ofLocation_eq_file_iff.1 h).2
    rw [hresolved, (ofLocation_eq_file_iff.1 h').2] at huri
    exact (Option.some.inj huri).symm

/-! ## Identity -/

/-- **A location's key is its file and nothing else.** Whether there is a file is up to the text of the
location and to one of the two paths being absolute; the file's names are those that the steps from the
root resolve to, and they are read back from the URI byte for byte. So two locations are one file just
when they resolve to the same names. -/
theorem ofLocation_identity {encoded : UInt8 → Bool} {write : FileUri.Writer}
    (hencoded : FileUri.Separates encoded) (hwrite : FileUri.Writes encoded write)
    (location location' : Location) (root root' : Path) :
    let key := ofLocation write location root
    let key' := ofLocation write location' root'
    let steps := Path.stepsFrom root location.path
    let steps' := Path.stepsFrom root' location'.path
    ((∃ uri, key = .file uri) ↔
        location.NamesFile ∧ (location.path.isAbsolute = true ∨ root.isAbsolute = true)) ∧
      ((¬ ∃ uri, key = .file uri) → key = .verbatim location.raw) ∧
      (∀ uri, key = .file uri → ∃ names, (∀ other, Path.ResolvesTo steps other ↔ other = names) ∧
        uri.segments.map FileUri.percentDecode = names) ∧
      ∀ uri uri', key = .file uri → key' = .file uri' →
        (key = key' ↔ ∃ names, Path.ResolvesTo steps names ∧ Path.ResolvesTo steps' names) := by
  intro key key' steps steps'
  have hsteps (names : List (List UInt8)) : Path.ResolvesTo steps names ↔
      names = (root.join location.path).resolve.names := Path.resolvesTo_stepsFrom_iff
  have hsteps' (names : List (List UInt8)) : Path.ResolvesTo steps' names ↔
      names = (root'.join location'.path).resolve.names := Path.resolvesTo_stepsFrom_iff
  refine ⟨exists_ofLocation_iff hwrite, ofLocation_eq_verbatim, ?_, ?_⟩
  · intro uri huri
    exact ⟨_, hsteps, (names_of_ofLocation hwrite hencoded huri).2⟩
  · intro uri uri' huri huri'
    have hkeys : key = key' ↔ uri = uri' := by
      rw [huri, huri', file.injEq]
    rw [hkeys, eq_iff_names_eq hencoded hwrite huri huri']
    constructor
    · intro e
      exact ⟨_, (hsteps _).2 rfl, (hsteps' _).2 e⟩
    · rintro ⟨names, hnames, hnames'⟩
      exact ((hsteps names).1 hnames).symm.trans ((hsteps' names).1 hnames')

/-- A relative location with blanks around it, and names that look encoded or have to be. -/
def sampleLocation : Location := ⟨" ../lib/./a%2Fb/../é%.swift "⟩

/-- A directory that has a name of one byte that is no text. -/
def sampleRoot : Path := ⟨Text.Utf8.encode "/work//" ++ 0xFF :: Text.Utf8.encode "/app/"⟩

theorem ofLocation_identity_sampleLocation :
    FileUri.Separates FileUri.isEncoded ∧ FileUri.Writes FileUri.isEncoded FileUri.ofResolved? ∧
      ∃ uri, ofLocation FileUri.ofResolved? sampleLocation sampleRoot = .file uri ∧
        uri.segments.map FileUri.percentDecode =
          [Text.Utf8.encode "work", [0xFF], Text.Utf8.encode "lib",
            Text.Utf8.encode "é%.swift"] := by
  have hencoded := FileUri.separates_isEncoded
  have hwrite := FileUri.writes_ofResolved?
  have hplain : ((Text.trim sampleLocation.raw.toList).all fun c => !Text.isControl c) = true := by
    decide +kernel
  have hfile : sampleLocation.NamesFile := {
    ne_nil := by decide +kernel
    isControl := by simpa only [List.all_eq_true, Bool.not_eq_true'] using hplain
    not_bracketed := mt Location.isBracketed_iff.2 (by decide +kernel) }
  obtain ⟨hkey, -, hnames, -⟩ :=
    ofLocation_identity hencoded hwrite sampleLocation sampleLocation sampleRoot ⟨[]⟩
  obtain ⟨uri, huri⟩ := hkey.2 ⟨hfile, .inr (by decide +kernel)⟩
  obtain ⟨names, hresolved, hdecoded⟩ := hnames uri huri
  exact ⟨hencoded, hwrite, uri, huri,
    hdecoded.trans ((hresolved _).1 (Path.resolvesTo_iff.2 (by decide +kernel))).symm⟩

end DocumentKey

end BuildDiagnostics
