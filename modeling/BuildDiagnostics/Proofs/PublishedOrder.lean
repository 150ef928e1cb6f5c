import BuildDiagnostics.Proofs.Concatenation
import BuildDiagnostics.Proofs.Publishing

/-!
# The order in which a document's diagnostics are told

A sink is told the diagnostics of a document location by location, since publishing starts from lists
that are grouped by location already (`documentItems_extract`). So the order of the output is kept for
each spelling of the document, but between two spellings only as long as neither of them comes back
after the other: `documentItems_eq_reportedOn_iff` says that this is the exact condition, and
`told_out_of_order` shows an output that breaks it.
-/

namespace BuildDiagnostics

variable (write : FileUri.Writer) (root : Path)

/-- What the output reports on a document, in the order of the output. -/
def reportedOn (text : String) (key : DocumentKey) : List Diagnostic :=
  (Extraction.listed text).filter fun d => DocumentKey.ofLocation write d.location root = key

theorem documentItems_ofList (ds : List Diagnostic) (key : DocumentKey) :
    documentItems write root (.ofList ds) key =
      (Grouping.groups Diagnostic.location
        (ds.filter fun d => DocumentKey.ofLocation write d.location root = key)).flatMap Prod.snd := by
  let p : Location → Bool := fun location => DocumentKey.ofLocation write location root = key
  have hfilter := Grouping.groups_filter Diagnostic.location p ds
  rw [documentItems, DiagnosticsByLocation.groups_ofList, List.filter_map, List.flatMap_map, hfilter]
  rfl

/-- What is told about a document is what was reported on it, grouped by location. -/
theorem documentItems_extract (text : String) (key : DocumentKey) :
    documentItems write root (extract text) key =
      (Grouping.groups Diagnostic.location (reportedOn write root text key)).flatMap Prod.snd := by
  rw [extract, Extraction.diagnostics_ofText, documentItems_ofList]
  rfl

theorem mem_documentKeys_of_mem_reportedOn {text : String} {key : DocumentKey} {d : Diagnostic}
    (h : d ∈ reportedOn write root text key) : key ∈ documentKeys write root (extract text) := by
  obtain ⟨hd, hkey⟩ := List.mem_filter.1 h
  have hlocation : d.location ∈ (extract text).locations := by
    rw [extract, Extraction.diagnostics_ofText, DiagnosticsByLocation.locations_ofList]
    exact (Grouping.mem_keys _).2 ⟨d, hd, rfl⟩
  rw [documentKeys, List.mem_eraseDups]
  exact List.mem_map.2 ⟨d.location, hlocation, of_decide_eq_true hkey⟩

/-- **A document's diagnostics are told in the order of the output exactly when its spellings do not
interrupt each other there.** In any case the same diagnostics are told, and those of one spelling keep
their order. -/
theorem documentItems_eq_reportedOn_iff (text : String) :
    let result := extract text
    (publish write .recorder #[] result root).toList =
        .clear :: (documentKeys write root result).map (fun key =>
          .set key (documentItems write root result key).toArray) ∧
      ∀ key,
        let told := documentItems write root result key
        let reported := reportedOn write root text key
        told.Perm reported ∧
          (∀ location,
            told.filter (·.location = location) = reported.filter (·.location = location)) ∧
          (told = reported ↔ Grouping.Uninterrupted Diagnostic.location reported) := by
  intro result
  refine ⟨publish_recorder write root result, fun key => ?_⟩
  intro told reported
  have htold : told = (Grouping.groups Diagnostic.location reported).flatMap Prod.snd :=
    documentItems_extract write root text key
  refine ⟨?_, fun location => ?_, ?_⟩
  · rw [htold]
    exact Grouping.flatMap_snd_groups_perm _ _
  · have hgroups := Grouping.groups_flatMap_snd_groups Diagnostic.location reported
    rw [htold]
    exact Grouping.withKey_eq_of_groups_eq _ hgroups location
  · rw [htold]
    exact Grouping.flatMap_snd_groups_eq_iff

/-- Three reports on one file, the second of which spells it differently. -/
def alternatingSpellings : String :=
  "a:1:1: error: x\n./a:2:1: error: y\na:3:1: error: z\n"

theorem told_out_of_order :
    let write := FileUri.ofResolved?
    let root := Path.ofText "/w"
    ∃ key items,
      SinkCall.set key items ∈ publish write .recorder #[] (extract alternatingSpellings) root ∧
        items.toList.map Diagnostic.message = [" x", " z", " y"] ∧
        (reportedOn write root alternatingSpellings key).map Diagnostic.message =
          [" x", " y", " z"] := by
  intro write root
  let key : DocumentKey := .ofLocation write ⟨"a"⟩ root
  have hreported : (reportedOn write root alternatingSpellings key).map Diagnostic.message =
      [" x", " y", " z"] := by
    decide +kernel
  have htold : (documentItems write root (extract alternatingSpellings) key).map
      Diagnostic.message = [" x", " z", " y"] := by
    rw [documentItems_extract]
    decide +kernel
  have hkey : key ∈ documentKeys write root (extract alternatingSpellings) := by
    cases e : reportedOn write root alternatingSpellings key with
    | nil =>
      rw [e] at hreported
      cases hreported
    | cons d ds => exact mem_documentKeys_of_mem_reportedOn _ _ (e ▸ List.mem_cons_self)
  refine ⟨key, _, ?_, htold, hreported⟩
  rw [← Array.mem_toList_iff, publish_recorder]
  exact List.mem_cons_of_mem _ (List.mem_map_of_mem hkey)

end BuildDiagnostics
