import CodeAtlas.Extraction
import CodeAtlas.Scan

/-!
# Batches

Work on many files of a source tree. A file that fails is left out and counted.
-/

namespace CodeAtlas

/-- How many files a batch had, and how many of them failed. -/
structure BatchSummary where
  files : Nat
  parsed : Nat
  skipped : Nat
deriving DecidableEq, Repr

/-- What became of each file of a batch. -/
structure Batch (α : Type) where
  outcomes : List (String × Result α)

namespace Batch

def ofFiles {α : Type} (files : List String) (work : String → Result α) : Batch α :=
  ⟨files.map fun file => (file, work file)⟩

def files {α : Type} (batch : Batch α) : List String := batch.outcomes.map Prod.fst

/-- The results of the files that did not fail. -/
def results {α : Type} (batch : Batch α) : List α :=
  batch.outcomes.filterMap fun outcome => outcome.2.toOption

def summary {α : Type} (batch : Batch α) : BatchSummary :=
  let parsed := batch.results.length
  ⟨batch.outcomes.length, parsed, batch.outcomes.length - parsed⟩

end Batch

namespace SourceTree

def checkRoot (tree : SourceTree) : Result Unit :=
  if tree.files.isDirectory tree.root then .ok ()
  else .error (.invalidArgument
    s!"source tree does not exist or is not a directory: {tree.root}")

def scan (tree : SourceTree) : List String := tree.files.scan tree.language tree.root

def extractFiles (tree : SourceTree) (convention : Convention) (files : List String) :
    Result (Batch (List Graph.Edge)) := do
  tree.checkRoot
  return Batch.ofFiles files (tree.extract convention)

def extractAll (tree : SourceTree) (convention : Convention) :
    Result (Batch (List Graph.Edge)) :=
  tree.extractFiles convention tree.scan

end SourceTree

end CodeAtlas
