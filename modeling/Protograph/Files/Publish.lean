/-
  Protograph.Files.Publish — file units written below a directory, each to its path.
-/

import Protograph.Files.Store
import Protograph.Descriptor.SourceText

namespace Protograph

/-- A file or directory that could not be written. -/
structure WriteError where
  path : String

def WriteError.message (e : WriteError) : String := "failed to write " ++ e.path ++ ": "

variable {m : Type → Type} [Monad m]

/-- Writes one unit, and gives the path of its file. -/
def publishUnit (store : FileStore m) (namespaces : Namespaces) (output : String) (u : PackageUnit) :
    ExceptT WriteError m String := do
  let path := Path.join output u.path
  if let some directory := Path.parent? path then
    unless ← store.makeDirectory directory do throw ⟨directory⟩
  unless ← store.write path (u.render namespaces).toUTF8.toList do throw ⟨path⟩
  return path

/-- Writes units one after another, and gives the paths of their files. -/
def publish (store : FileStore m) (units : List PackageUnit) (output : String) : ExceptT WriteError m (List String) :=
  units.mapM (publishUnit store (Namespaces.ofUnits units) output)

end Protograph
