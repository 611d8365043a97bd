/-
  Protograph.Files.Documents — schema documents read from files and merged into one
  graph. A file is read as JSON if its name says so, and as YAML otherwise.
-/

import Protograph.Files.Store
import Protograph.Schema.Reading
import Protograph.Document.JsonSource
import Protograph.Document.Yaml.Source

namespace Protograph

inductive LoadError
  | unreadable (path : String)
  /-- The file is no schema document. -/
  | invalid (path : String) (json : Bool) (error : ReadError)
  | duplicateEntity (name : String)

def LoadError.message : LoadError → String
  | unreadable path => "failed to read " ++ path ++ ": "
  | invalid path _ _ => "failed to parse " ++ path ++ ": "
  | duplicateEntity name => (CompileError.duplicateEntity name).message

/-- The document that a text in JSON or YAML writes. -/
def Document.ofText (json : Bool) (text : String) : Except ReadError Document :=
  if json then Json.ofText Reading.document text else Yaml.ofText Reading.document text

variable {m : Type → Type} [Monad m]

def loadDocument (store : FileStore m) (path : String) : ExceptT LoadError m Document := do
  match ← store.readText path with
  | none => throw (.unreadable path)
  | some text => match Document.ofText (Path.isJson path) text with
    | .ok d => return d
    | .error e => throw (.invalid path (Path.isJson path) e)

/-- The graph of the documents of some files. -/
def loadGraph (store : FileStore m) (paths : List String) : ExceptT LoadError m Graph := do
  let documents ← paths.mapM (loadDocument store)
  match Graph.ofDocuments documents with
  | .ok g => return g
  | .error name => throw (.duplicateEntity name)

end Protograph
