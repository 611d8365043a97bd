/-
  Protograph.Compile.EntityService — the service of an entity: those of Create, Get,
  Update, Delete and List that are asked for, always in that order. Get and Delete take
  the identifier in its wrapper; Get and List have no side effects.
-/

import Protograph.Compile.Listing

namespace Protograph

def serviceName (entity : String) : String := entity ++ "Service"

/-- A service and the messages that its methods bring along. -/
structure ServiceOutput where
  service : Service
  messages : List Message

namespace EntityService

/-- The message that holds the identifier of an entity. -/
def identifierWrapper (e : Entity) : Except EntityError String :=
  match e.id.kind.wrapper? with
  | some name => .ok name
  | none => .error (.unsupportedType (e.name ++ "." ++ e.id.name) ("optional " ++ e.id.kind.name))

/-- One method and the messages it brings along. -/
def method (e : Entity) : Method → Except EntityError (Rpc × List Message)
  | .create => .ok ({ name := "Create", input := e.name, output := e.name }, [])
  | .update => .ok ({ name := "Update", input := e.name, output := e.name }, [])
  | .get => do
    let input ← identifierWrapper e
    return ({ name := "Get", input, output := e.name, pure := true }, [])
  | .delete => do
    let input ← identifierWrapper e
    return ({ name := "Delete", input, output := WellKnown.empty }, [])
  | .list => do
    let messages ← Listing.build e
    return ({ name := "List", input := Listing.requestName e.name, output := Listing.responseName e.name,
              pure := true }, messages)

end EntityService

def buildService (e : Entity) (options : ServiceOptions) : Except EntityError ServiceOutput := do
  let methods ← options.methods.toList.mapM (EntityService.method e)
  return { service := { name := serviceName e.name, methods := methods.map (·.1) }
           messages := methods.flatMap (·.2) }

end Protograph
