/-
  Protograph.Descriptor.ImportOrder — an order of file units in which every unit comes
  after those it imports.

  The units are visited in their order, each after the units it imports, which are
  visited first in the order of the imports. A unit that is met again while it is being
  visited closes a cycle. Imports of files that are no units do not count.
-/

import Protograph.Descriptor.Basic
import Protograph.Fault

namespace Protograph.ImportOrder

/-- The paths that the unit of a path imports, as far as they are paths of units. Of
    several units of one path the last one counts. -/
def importsOf (units : List PackageUnit) (path : String) : List String :=
  match units.reverse.find? (·.path == path) with
  | some u => u.imports.filter fun i => units.any (·.path == i)
  | none => []

/-- Visits a path; `stack` has the paths being visited, outermost first, and `done` those
    visited already in the order in which that was finished. -/
def visit (units : List PackageUnit) : Nat → List String → List String → String → Except (List String) (List String)
  | fuel, stack, done, path =>
    if path ∈ done then .ok done
    else if path ∈ stack then .error (stack ++ [path])
    else match fuel with
      | 0 => .ok done
      | fuel + 1 => do
        let done ← (importsOf units path).foldlM (visit units fuel (stack ++ [path])) done
        return done ++ [path]

/-- The paths of the units in such an order, or the chain of imports that closes a cycle. -/
def order (units : List PackageUnit) : Except (List String) (List String) :=
  (units.map (·.path)).foldlM (fun done path => visit units units.length [] done path) []

end Protograph.ImportOrder
