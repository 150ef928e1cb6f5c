import BuildDiagnostics.Proofs.DocumentIdentity
import BuildDiagnostics.Proofs.Lines
import BuildDiagnostics.Proofs.Utf8
import Mathlib.Data.List.DropRight

/-!
# Spellings of a path

A resolved path is spelled with its names between slashes, and as every name was read from between
slashes, the spelling reads back as the path it was made from (`Resolved.resolve_toPath`). A path is
resolved against a root by going on where the root ends (`resolve_join`). So of a root only what it
resolves to matters, and a path may as well be written behind its root (`resolve_append_slash`). Where
the root is a text, what is written there is a location again, and keys of documents do not tell the
two locations apart (`DocumentKey.ofLocation_spelling`).
-/

namespace BuildDiagnostics

namespace Path

/-- A name that reads as itself between slashes. -/
structure IsName (bytes : List UInt8) : Prop where
  ofPiece? : Component.ofPiece? bytes = some (.name bytes)
  slash_not_mem : slash ∉ bytes

theorem isName_of_mem_resolve {path : Path} {bytes : List UInt8} (h : bytes ∈ path.resolve.names) :
    IsName bytes := by
  rcases mem_foldl_step h with h | h
  · cases h
  · obtain ⟨piece, hpiece, hread⟩ := List.mem_filterMap.1 h
    have hbytes := Component.eq_of_ofPiece? hread
    exact ⟨hbytes ▸ hread, hbytes ▸ Text.not_mem_of_mem_splitOn hpiece⟩

theorem IsName.ne_nil {bytes : List UInt8} (h : IsName bytes) : bytes ≠ [] := by
  rintro rfl
  exact absurd h.ofPiece? (by decide)

theorem IsName.components_eq {bytes : List UInt8} (h : IsName bytes) :
    components ⟨bytes⟩ = [.name bytes] := by
  rw [components, Text.splitOn_of_not_mem h.slash_not_mem, List.filterMap_cons_some h.ofPiece?,
    List.filterMap_nil]

/-! ## Reading a spelling -/

namespace Resolved

theorem components_intercalate {names : List (List UInt8)} (h : ∀ bytes ∈ names, IsName bytes) :
    components ⟨[slash].intercalate names⟩ = names.map .name := by
  induction names with
  | nil => rfl
  | cons bytes rest ih =>
    have hfirst := (h bytes List.mem_cons_self).components_eq
    cases rest with
    | nil => rw [List.intercalate_singleton, hfirst, List.map_singleton]
    | cons next rest =>
      have hrest := ih fun other hother => h other (List.mem_cons_of_mem bytes hother)
      rw [List.intercalate_cons_cons, List.append_assoc, List.singleton_append,
        components_append_slash, hfirst, hrest]
      rfl

variable {r : Resolved} (h : ∀ bytes ∈ r.names, IsName bytes)
include h

theorem components_toPath : r.toPath.components = r.names.map .name := by
  have hnames := components_intercalate h
  rw [toPath]
  cases r.absolute with
  | false => exact hnames
  | true => exact (components_append_slash [] _).trans hnames

theorem isAbsolute_toPath : r.toPath.isAbsolute = r.absolute := by
  rw [toPath, isAbsolute]
  cases r.absolute with
  | true => rfl
  | false =>
    cases e : r.names with
    | nil => rfl
    | cons bytes rest =>
      have hbytes : IsName bytes := h bytes (e ▸ List.mem_cons_self)
      obtain ⟨b, bs, hcons⟩ := List.exists_cons_of_ne_nil hbytes.ne_nil
      have hb : b ≠ slash := by
        rintro rfl
        exact hbytes.slash_not_mem (hcons ▸ List.mem_cons_self)
      cases rest with
      | nil => simp [hcons, hb]
      | cons next rest => simp [hcons, hb, List.intercalate_cons_cons]

/-- **A spelling reads back.** -/
theorem resolve_toPath : r.toPath.resolve = r := by
  have hnames : r.toPath.components.foldl step [] = r.names := by
    rw [components_toPath h, foldl_step_map_name, List.nil_append]
  exact congrArg₂ Resolved.mk (isAbsolute_toPath h) hnames

end Resolved

theorem resolve_normalize (path : Path) : path.normalize.resolve = path.resolve :=
  Resolved.resolve_toPath fun _ => isName_of_mem_resolve

theorem components_normalize (path : Path) :
    path.normalize.components = path.resolve.names.map .name :=
  Resolved.components_toPath fun _ => isName_of_mem_resolve

theorem normalize_normalize (path : Path) : path.normalize.normalize = path.normalize :=
  congrArg Resolved.toPath (resolve_normalize path)

/-! ## Resolving against a root -/

/-- The steps of a path go on where its root has led. -/
theorem resolve_join (root path : Path) :
    (root.join path).resolve =
      if path.isAbsolute then path.resolve
      else { root.resolve with names := path.components.foldl Resolved.step root.resolve.names } := by
  rw [resolve, components_join, isAbsolute_join, stepsFrom]
  cases hpath : path.isAbsolute with
  | true => rw [if_pos rfl, if_pos rfl, Bool.true_or, resolve, hpath]
  | false =>
    rw [if_neg Bool.false_ne_true, if_neg Bool.false_ne_true, Bool.false_or, List.foldl_append]
    rfl

theorem resolve_join_normalize (root path : Path) :
    (root.normalize.join path).resolve = (root.join path).resolve := by
  rw [resolve_join, resolve_join, resolve_normalize]

theorem isAbsolute_append_slash {root : Path} (hroot : root.isAbsolute = true)
    (bytes : List UInt8) : isAbsolute ⟨root.bytes ++ slash :: bytes⟩ = true := by
  obtain ⟨rest, hrest⟩ := List.head?_eq_some_iff.1 (beq_iff_eq.1 hroot)
  simp [isAbsolute, hrest]

/-- A path that is written behind its root resolves as it does against the root. -/
theorem resolve_append_slash {root path : Path} (hroot : root.isAbsolute = true)
    (hpath : path.isAbsolute = false) :
    resolve ⟨root.bytes ++ slash :: path.bytes⟩ = (root.join path).resolve := by
  rw [resolve, resolve, isAbsolute_append_slash hroot, isAbsolute_join, hroot, Bool.or_true,
    components_append_slash, components_join, stepsFrom, hpath, if_neg Bool.false_ne_true]

/-- A text that spells an absolute path starts with a slash. -/
theorem exists_of_isAbsolute_ofText {text : String} (h : (ofText text).isAbsolute = true) :
    ∃ rest, text.toList = '/' :: rest :=
  List.head?_eq_some_iff.1 (Text.Utf8.head?_of_head?_encode (by decide) (beq_iff_eq.1 h))

end Path

/-! ## Locations -/

namespace Text

theorem trimmed_eq_self_iff {s : String} : trimmed s = s ↔ trim s.toList = s.toList := by
  rw [trimmed, ← String.toList_inj, String.toList_ofList]

/-- Whether anything is trimmed off is up to the first and the last character. -/
theorem trim_cons_append {c : Char} {cs : List Char} (hc : isBlank c = false) (hne : cs ≠ [])
    (htrim : trim cs = cs) (front : List Char) : trim (c :: front ++ cs) = c :: front ++ cs := by
  have hend : cs.rdropWhile isBlank = cs := by
    have htwice := List.rdropWhile_idempotent isBlank (cs.dropWhile isBlank)
    rw [show (cs.dropWhile isBlank).rdropWhile isBlank = cs from htrim] at htwice
    exact htwice
  rw [trim, List.cons_append, List.dropWhile_cons_of_neg (Bool.eq_false_iff.1 hc)]
  refine List.rdropWhile_eq_self_iff.2 fun h hblank => ?_
  have hlast : (c :: front ++ cs).getLast h = cs.getLast hne :=
    List.getLast_append_of_right_ne_nil _ _ hne
  exact List.rdropWhile_eq_self_iff.1 hend hne (hlast ▸ hblank)

end Text

namespace Location

theorem isFile_iff {location : Location} : location.isFile = true ↔ location.NamesFile := by
  rw [isFile, Option.isSome_iff_exists]
  simp only [filePath?_eq_some_iff, exists_and_left, exists_eq, and_true]

/-- The location with its text behind that of a root. -/
def behind (root : String) (location : Location) : Location :=
  ⟨root ++ "/" ++ location.raw⟩

section Behind

variable {root : String} {location : Location} (hroot : (Path.ofText root).isAbsolute = true)
  (hfile : location.NamesFile) (htrim : Text.trimmed location.raw = location.raw)
include hroot hfile htrim

theorem trimmed_behind : Text.trimmed (location.behind root).raw = (location.behind root).raw := by
  rw [Text.trimmed_eq_self_iff] at htrim ⊢
  have hne : location.raw.toList ≠ [] := htrim ▸ hfile.ne_nil
  obtain ⟨rest, hrest⟩ := Path.exists_of_isAbsolute_ofText hroot
  have htext : (location.behind root).raw.toList =
      '/' :: (rest ++ ['/']) ++ location.raw.toList := by
    simp [behind, hrest]
  rw [htext]
  exact Text.trim_cons_append (by decide) hne htrim _

theorem path_behind :
    (location.behind root).path =
      ⟨(Path.ofText root).bytes ++ Path.slash :: location.path.bytes⟩ := by
  rw [path, path, trimmed_behind hroot hfile htrim, htrim, behind, Path.ofText,
    Text.Utf8.encode_append, Text.Utf8.encode_append, List.append_assoc]
  rfl

theorem namesFile_behind (hcontrol : ∀ c ∈ root.toList, Text.isControl c = false) :
    (location.behind root).NamesFile := by
  have hraw := Text.trimmed_eq_self_iff.1 (trimmed_behind hroot hfile htrim)
  rw [Text.trimmed_eq_self_iff] at htrim
  have htext : (location.behind root).raw.toList = root.toList ++ '/' :: location.raw.toList := by
    simp [behind]
  obtain ⟨rest, hrest⟩ := Path.exists_of_isAbsolute_ofText hroot
  rw [htext] at hraw
  constructor
  · rw [htext, hraw, hrest]
    exact List.cons_ne_nil _ _
  · rw [htext, hraw]
    intro c hc
    rcases List.mem_append.1 hc with hc | hc
    · exact hcontrol c hc
    · rcases List.mem_cons.1 hc with rfl | hc
      · decide
      · exact hfile.isControl c (htrim.symm ▸ hc)
  · rw [htext, hraw, hrest]
    rintro ⟨inner, hinner⟩
    cases hinner

end Behind

end Location

/-! ## Keys -/

namespace DocumentKey

section Spelling

variable {write : FileUri.Writer}

theorem ofLocation_normalize (location : Location) (root : Path) :
    ofLocation write location root = ofLocation write location root.normalize := by
  simp only [ofLocation, Location.fileUri?, Path.resolve_join_normalize]

variable {encoded : UInt8 → Bool} (hwrite : FileUri.Writes encoded write) {location : Location}
include hwrite

/-- The file of a relative path and an absolute root is that of the one written behind the other. -/
theorem exists_ofLocation_of_isAbsolute {root : Path} (hroot : root.isAbsolute = true)
    (hfile : location.NamesFile) (hrelative : location.path.isAbsolute = false) :
    ∃ uri, ofLocation write location root = .file uri ∧
      write (Path.resolve ⟨root.bytes ++ Path.slash :: location.path.bytes⟩) = some uri := by
  obtain ⟨uri, huri⟩ := (exists_ofLocation_iff hwrite).2 ⟨hfile, .inr hroot⟩
  rw [Path.resolve_append_slash hroot hrelative]
  exact ⟨uri, huri, (ofLocation_eq_file_iff.1 huri).2⟩

/-- A location behind an absolute root needs no root any more. -/
theorem exists_ofLocation_behind {root : String} (hroot : (Path.ofText root).isAbsolute = true)
    (root' : Path) (hcontrol : ∀ c ∈ root.toList, Text.isControl c = false)
    (hfile : location.NamesFile) (hrelative : location.path.isAbsolute = false)
    (htrim : Text.trimmed location.raw = location.raw) :
    ∃ uri, ofLocation write location (.ofText root) = .file uri ∧
      ofLocation write (location.behind root) root' = .file uri := by
  obtain ⟨uri, huri, hbehind⟩ := exists_ofLocation_of_isAbsolute hwrite hroot hfile hrelative
  have hnames := Location.namesFile_behind hroot hfile htrim hcontrol
  refine ⟨uri, huri, ofLocation_eq_file_iff.2 ⟨hnames, ?_⟩⟩
  rw [Location.path_behind hroot hfile htrim, Path.resolve_join,
    if_pos (Path.isAbsolute_append_slash hroot _)]
  exact hbehind

end Spelling

/-- **Keys do not depend on how roots and paths are spelled.** Spelling out what a path resolves to leaves
no `.` and no `..` in it and changes nothing any more when it is done again. A root may be spelled out
before it is used. A relative file path may be written behind an absolute root; where the root is a text
without control characters, that is a location again, and the same document wherever it is looked at
from. -/
theorem ofLocation_spelling {encoded : UInt8 → Bool} {write : FileUri.Writer}
    (hwrite : FileUri.Writes encoded write) :
    let keyOf := ofLocation write
    (∀ path : Path,
        .here ∉ path.normalize.components ∧ .up ∉ path.normalize.components ∧
          path.normalize.isAbsolute = path.isAbsolute ∧
          path.normalize.resolve = path.resolve ∧ path.normalize.normalize = path.normalize) ∧
      (∀ location root, keyOf location root = keyOf location root.normalize) ∧
      (∀ (location : Location) (root : Path), root.isAbsolute = true → location.NamesFile →
        location.path.isAbsolute = false →
        ∃ uri, keyOf location root = .file uri ∧
          write (Path.resolve ⟨root.bytes ++ Path.slash :: location.path.bytes⟩) = some uri) ∧
      ∀ (location : Location) (root : String) (root' : Path),
        (Path.ofText root).isAbsolute = true →
        (∀ c ∈ root.toList, Text.isControl c = false) → location.NamesFile →
        location.path.isAbsolute = false → Text.trimmed location.raw = location.raw →
        keyOf location (.ofText root) = keyOf ⟨root ++ "/" ++ location.raw⟩ root' := by
  intro keyOf
  refine ⟨fun path => ⟨?_, ?_, ?_, path.resolve_normalize, path.normalize_normalize⟩,
    ofLocation_normalize, ?_, ?_⟩
  · rw [Path.components_normalize]
    simp
  · rw [Path.components_normalize]
    simp
  · exact congrArg Path.Resolved.absolute path.resolve_normalize
  · intro location root hroot hfile hrelative
    exact exists_ofLocation_of_isAbsolute hwrite hroot hfile hrelative
  · intro location root root' hroot hcontrol hfile hrelative htrim
    obtain ⟨uri, huri, hbehind⟩ :=
      exists_ofLocation_behind hwrite hroot root' hcontrol hfile hrelative htrim
    exact huri.trans hbehind.symm

def sampleRelative : Location := ⟨"../lib/./a b.swift"⟩

theorem ofLocation_spelling_sampleRelative :
    let keyOf := ofLocation FileUri.ofResolved?
    FileUri.Writes FileUri.isEncoded FileUri.ofResolved? ∧ sampleRelative.NamesFile ∧
      keyOf sampleRelative (.ofText "/work//app/") = keyOf sampleRelative (.ofText "/work/app") ∧
      keyOf sampleRelative (.ofText "/work//app/") =
        keyOf ⟨"/work//app//../lib/./a b.swift"⟩ (.ofText "elsewhere") ∧
      ∃ uri, keyOf sampleRelative ⟨[0x2F, 0xFF, 0x2F, 0x78]⟩ = .file uri ∧
        FileUri.ofResolved? { absolute := true, names := [[0xFF]] ++
          ["lib", "a b.swift"].map Text.Utf8.encode } = some uri := by
  intro keyOf
  have hwrite := FileUri.writes_ofResolved?
  have hfile : sampleRelative.NamesFile := Location.isFile_iff.1 (by decide +kernel)
  obtain ⟨-, hnormalize, hbytes, hbehind⟩ := ofLocation_spelling hwrite
  have hroot : Path.normalize (.ofText "/work//app/") = .ofText "/work/app" := by decide +kernel
  have hplain : ("/work//app/".toList.all fun c => !Text.isControl c) = true := by decide +kernel
  simp only [List.all_eq_true, Bool.not_eq_true'] at hplain
  have hrelative : sampleRelative.path.isAbsolute = false := by decide +kernel
  obtain ⟨uri, huri, hwritten⟩ :=
    hbytes sampleRelative ⟨[0x2F, 0xFF, 0x2F, 0x78]⟩ (by decide) hfile hrelative
  have hresolved :
      Path.resolve ⟨[0x2F, 0xFF, 0x2F, 0x78] ++ Path.slash :: sampleRelative.path.bytes⟩ =
        { absolute := true, names := [[0xFF]] ++ ["lib", "a b.swift"].map Text.Utf8.encode } := by
    decide +kernel
  refine ⟨hwrite, hfile, hroot ▸ hnormalize sampleRelative _, ?_, uri, huri, hresolved ▸ hwritten⟩
  exact hbehind sampleRelative "/work//app/" (.ofText "elsewhere") (by decide +kernel) hplain hfile
    hrelative (by decide +kernel)

end DocumentKey

end BuildDiagnostics
