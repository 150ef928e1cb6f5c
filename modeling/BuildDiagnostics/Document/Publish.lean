import BuildDiagnostics.Diagnostic.ByLocation
import BuildDiagnostics.Document.Key

/-!
# Publishing

Diagnostics are handed to a sink, which shows them by document. Locations of one document are merged
before the sink sees them: it is cleared once and then set once for each document, in the order in
which the documents were first met.
-/

namespace BuildDiagnostics

/-- A document and what was reported against it. -/
structure Document where
  key : DocumentKey
  items : Array Diagnostic
  deriving DecidableEq, Repr

namespace Document

/-- Whether some diagnostic of the document is an error. -/
def hasErrors (d : Document) : Bool :=
  d.items.any fun item => item.severity.isError

/-- Adds diagnostics to the document with the given key, which is opened at the end if need be. -/
def merge (key : DocumentKey) (items : Array Diagnostic) : List Document → List Document
  | [] => [{ key, items }]
  | d :: rest =>
    if d.key = key then { d with items := d.items ++ items } :: rest
    else d :: merge key items rest

/-- The documents of a grouping by location, by first appearance. -/
def ofDiagnostics (write : FileUri.Writer) (result : DiagnosticsByLocation) (root : Path) :
    List Document :=
  result.groups.foldl
    (fun documents g => merge (.ofLocation write g.location root) g.items documents) []

end Document

/-- A surface that shows diagnostics by document, as operations on its state. -/
structure Sink (σ : Type) where
  /-- Drops everything that is shown. -/
  clear : σ → σ
  /-- Shows diagnostics for a document in place of what is shown for it. -/
  set : σ → DocumentKey → Array Diagnostic → σ

/-- Replaces everything a sink shows by a grouping of diagnostics. -/
def publish {σ : Type} (write : FileUri.Writer) (sink : Sink σ) (state : σ)
    (result : DiagnosticsByLocation) (root : Path) : σ :=
  (Document.ofDiagnostics write result root).foldl (fun state d => sink.set state d.key d.items)
    (sink.clear state)

/-- What publishing reports, location by location. -/
def publishEvents (write : FileUri.Writer) (result : DiagnosticsByLocation) (root : Path) :
    List Log.Event :=
  result.locations.flatMap fun location => DocumentKey.events write location root

/-- A call that a sink received. -/
inductive SinkCall
  | clear
  | set (key : DocumentKey) (items : Array Diagnostic)
  deriving DecidableEq, Repr

/-- The sink that notes the calls it gets. -/
def Sink.recorder : Sink (Array SinkCall) where
  clear calls := calls.push .clear
  set calls key items := calls.push (.set key items)

end BuildDiagnostics
