/-
  Protograph.Schema.Graph — entities with their fields, edges and annotations, and the
  graph of them.

  A graph holds its entities in the order of the documents, and no two of one name
  (`Graph.names_nodup`): `Graph.ofEntities` refuses a list that repeats a name.
-/

import Protograph.Ordered
import Protograph.Schema.Kind
import Protograph.Schema.Mask
import Protograph.Descriptor.FieldType

namespace Protograph

/-- Opts an entity in: whether a message is made for it, and in which package. -/
structure MessageOptions where
  generate : Bool := true
  package : Option String := none
  deriving DecidableEq, Repr

/-- Opts an entity's service in, with its methods. -/
structure ServiceOptions where
  generate : Bool := true
  methods : Methods := Methods.all
  deriving DecidableEq, Repr

/-- Filter fields of a listing that no field of the entity stands behind. -/
structure ExtraFilter where
  fields : Table Kind := []
  deriving DecidableEq, Repr

/-- The number of a field, and a type that is taken in place of the mapped one. -/
structure FieldOptions where
  number : Int
  type : Option FieldType := none
  typeName : Option String := none
  deriving DecidableEq, Repr

/-- The numbers of an enumeration's values. -/
structure EnumOptions where
  numbers : Table Int := []
  omitFieldPrefix : Bool := false
  deriving DecidableEq, Repr

structure FilterOptions where
  mode : FilterModes := FilterModes.eq
  deriving DecidableEq, Repr

structure FieldAnnotations where
  field : Option FieldOptions := none
  enumeration : Option EnumOptions := none
  filter : Option FilterOptions := none
  skip : Bool := false
  deriving DecidableEq, Repr

structure EdgeAnnotations where
  field : Option FieldOptions := none
  skip : Bool := false
  deriving DecidableEq, Repr

structure EntityAnnotations where
  message : Option MessageOptions := none
  service : Option ServiceOptions := none
  extraFilter : Option ExtraFilter := none
  deriving DecidableEq, Repr

/-- A field of an entity as declared. -/
structure FieldSpec where
  name : String
  kind : Kind
  optional : Bool := false
  values : List String := []
  default : Option String := none
  json : Option Shape := none
  annotations : FieldAnnotations := {}
  deriving DecidableEq, Repr

/-- A relation to another entity as declared. -/
structure EdgeSpec where
  name : String
  target : String
  unique : Bool := false
  annotations : EdgeAnnotations := {}
  deriving DecidableEq, Repr

def FieldSpec.isSkipped (f : FieldSpec) : Bool := f.annotations.skip

def EdgeSpec.isSkipped (e : EdgeSpec) : Bool := e.annotations.skip

/-- The identifier of an entity that declares none. -/
def FieldSpec.defaultIdentifier : FieldSpec := { name := "id", kind := .int }

structure Entity where
  name : String
  id : FieldSpec := FieldSpec.defaultIdentifier
  fields : List FieldSpec := []
  edges : List EdgeSpec := []
  annotations : EntityAnnotations := {}
  deriving DecidableEq, Repr

namespace Entity

/-- The message annotation, when it asks for a message. -/
def generated? (e : Entity) : Option MessageOptions := e.annotations.message.filter (·.generate)

def generates (e : Entity) : Bool := e.generated?.isSome

/-- The fields that are not skipped, in the order declared. -/
def keptFields (e : Entity) : List FieldSpec := e.fields.filter fun f => !f.isSkipped

/-- The edges that are not skipped, in the order declared. -/
def keptEdges (e : Entity) : List EdgeSpec := e.edges.filter fun x => !x.isSkipped

/-- The package of the entity's message, if one is asked for. -/
def package? (e : Entity) (standard : String) : Option String :=
  e.generated?.map fun m => m.package.getD standard

end Entity

/-- One schema document. -/
structure Document where
  entities : List Entity := []
  deriving DecidableEq, Repr

/-- Entities in the order of the documents, no two of one name. -/
structure Graph where
  entities : List Entity
  names_nodup : (entities.map (·.name)).Nodup
  deriving DecidableEq

namespace Graph

/-- The first name that occurs again after names already seen. -/
def firstRepeated (seen : List String) : List String → Option String
  | [] => none
  | n :: ns => if n ∈ seen then some n else firstRepeated (n :: seen) ns

theorem nodup_of_firstRepeated_eq_none {seen ns : List String} (h : firstRepeated seen ns = none) :
    ns.Nodup ∧ ∀ n ∈ ns, n ∉ seen := by
  induction ns generalizing seen with
  | nil => simp
  | cons n ns ih =>
    unfold firstRepeated at h
    split at h
    · simp at h
    · rename_i hn
      obtain ⟨hd, hs⟩ := ih h
      refine ⟨List.nodup_cons.2 ⟨fun hm => hs n hm (by simp), hd⟩, ?_⟩
      intro m hm
      rcases List.mem_cons.1 hm with rfl | hm
      · exact hn
      · exact fun hs' => hs m hm (List.mem_cons_of_mem _ hs')

/-- The graph of some entities, or the first name declared again. -/
def ofEntities (entities : List Entity) : Except String Graph :=
  match h : firstRepeated [] (entities.map (·.name)) with
  | some name => .error name
  | none => .ok ⟨entities, (nodup_of_firstRepeated_eq_none h).1⟩

/-- The graph of the entities of several documents, one after the other. -/
def ofDocuments (documents : List Document) : Except String Graph :=
  ofEntities (documents.flatMap (·.entities))

def entity? (g : Graph) (name : String) : Option Entity := g.entities.find? (·.name == name)

end Graph

end Protograph
