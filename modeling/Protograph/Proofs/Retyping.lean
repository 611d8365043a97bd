/-
  Protograph.Proofs.Retyping — files with other names of types.

  What a file refers to can be named otherwise, each name by the scope it is written in
  (`ProtoFile.retype`). That goes through messages nested to any depth, each a scope of its
  own, and leaves everything else of the file where it was.

  Proved:
  - `ProtoFile.references_retype`: the file refers to the same by other names, in the same
    order and scopes.
  - `canonicalFile_eq`: a file becomes canonical by other names of types, each the full name
    of what the old one stands for.
-/

import Protograph.Proofs.Canonical

namespace Protograph

/-! ## Other names -/

def Field.retype (g : String → String) (f : Field) : Field := { f with typeName := f.typeName.map g }

mutual

/-- The message with other names of types, each given by the scope and the name written in it. -/
def Message.retype (g : String → String → String) (scope : String) : Message → Message
  | ⟨name, fields, enums, nested⟩ =>
    ⟨name, fields.map (Field.retype (g (qualify scope name))), enums, Message.retypeAll g (qualify scope name) nested⟩

def Message.retypeAll (g : String → String → String) (scope : String) : List Message → List Message
  | [] => []
  | m :: ms => m.retype g scope :: Message.retypeAll g scope ms

end

def Rpc.retype (g : String → String) (m : Rpc) : Rpc := { m with input := g m.input, output := g m.output }

def Service.retype (g : String → String) (s : Service) : Service := { s with methods := s.methods.map (Rpc.retype g) }

/-- The file with other names of types. -/
def ProtoFile.retype (g : String → String → String) (f : ProtoFile) : ProtoFile :=
  { f with
    messages := Message.retypeAll g f.package f.messages
    services := f.services.map (Service.retype (g f.package)) }

def Reference.retype (g : String → String → String) (r : Reference) : Reference := { r with name := g r.scope r.name }

/-! ## References by other names -/

variable (g : String → String → String)

theorem Field.reference?_retype (scope : String) (f : Field) :
    (f.retype (g scope)).reference? scope = (f.reference? scope).map (Reference.retype g) := by
  unfold Field.retype Field.reference?
  cases f.typeName <;> rfl

/-- The induction is on the nesting: the fields of a message, what is nested in it, then the
    messages that follow. -/
theorem Message.referencesAll_retypeAll : ∀ (scope : String) (ms : List Message),
    Message.referencesAll scope (Message.retypeAll g scope ms) = (Message.referencesAll scope ms).map (Reference.retype g)
  | _, [] => rfl
  | scope, ⟨name, fields, enums, nested⟩ :: ms => by
    have hfields : (fields.map (Field.retype (g (qualify scope name)))).filterMap (Field.reference? (qualify scope name)) =
        (fields.filterMap (Field.reference? (qualify scope name))).map (Reference.retype g) := by
      rw [List.filterMap_map, List.map_filterMap]
      congr 1
      funext f
      exact Field.reference?_retype g _ f
    have hin := Message.referencesAll_retypeAll (qualify scope name) nested
    have hafter := Message.referencesAll_retypeAll scope ms
    simp only [Message.retypeAll, Message.retype, Message.referencesAll, Message.references, List.map_append, hfields,
      hin, hafter]

theorem Service.references_retype (scope : String) (s : Service) :
    (s.retype (g scope)).references scope = (s.references scope).map (Reference.retype g) := by
  unfold Service.retype Service.references
  rw [List.flatMap_map, List.map_flatMap]
  rfl

/-- A file with other names of types refers to the same by these names. -/
theorem ProtoFile.references_retype (f : ProtoFile) : (f.retype g).references = f.references.map (Reference.retype g) := by
  unfold ProtoFile.references
  show Message.referencesAll f.package (Message.retypeAll g f.package f.messages) ++
    (f.services.map (Service.retype (g f.package))).flatMap (Service.references f.package) = _
  rw [Message.referencesAll_retypeAll, List.map_append, List.flatMap_map, List.map_flatMap]
  simp only [Service.references_retype]

/-! ## Canonical files -/

namespace Assembly

variable {symbols : Symbols} {file : ProtoFile} {scope : String}

/-- The full name, with a dot in front, of what a name stands for. -/
def fullName (symbols : Symbols) (scope name : String) : String :=
  "." ++ ((symbols.resolve scope name).map (·.name)).getD name

theorem fullName_of_resolve {name : String} {s : Symbol} (h : symbols.resolve scope name = some s) :
    fullName symbols scope name = "." ++ s.name := by
  rw [fullName, h]
  rfl

theorem canonicalField_eq {f f' : Field} (h : canonicalField symbols file scope f = .ok f') :
    f' = f.retype (fullName symbols scope) := by
  rcases canonicalField_eq_ok.mp h with ⟨hnone, rfl⟩ | ⟨name, s, hname, hs, _, rfl⟩
  · rw [Field.retype, hnone, Option.map_none, ← hnone]
  · rw [Field.retype, hname, Option.map_some, fullName_of_resolve hs]

/-- The induction is on the nesting, as for the references. -/
theorem canonicalMessages_eq : ∀ (ms : List Message) {scope : String} {ms' : List Message},
    canonicalMessages symbols file scope ms = .ok ms' → ms' = Message.retypeAll (fullName symbols) scope ms
  | [], _, _, h => by
    cases h
    rfl
  | ⟨name, fields, enums, nested⟩ :: ms, scope, _, h => by
    obtain ⟨⟨name', fields', enums', nested'⟩, ms', hm, hms, rfl⟩ :=
      List.forall₂_cons_left_iff.mp (canonicalMessages_eq_ok.mp h)
    obtain ⟨hname, henums, hfields, hnested⟩ := canonicalMessage_eq_ok.mp hm
    dsimp only at hname henums hfields hnested
    have hin := canonicalMessages_eq nested (canonicalMessages_eq_ok.mpr hnested)
    have hafter := canonicalMessages_eq ms (canonicalMessages_eq_ok.mpr hms)
    have hfields := eq_map_of_forall₂ (hfields.imp fun _ _ => canonicalField_eq)
    rw [Message.retypeAll, Message.retype, hname, henums, hfields, hin, hafter]

theorem canonicalMethod_eq {m m' : Rpc} (h : canonicalMethod symbols file m = .ok m') :
    m' = m.retype (fullName symbols file.package) := by
  obtain ⟨s, t, hs, _, ht, _, rfl⟩ := canonicalMethod_eq_ok.mp h
  rw [Rpc.retype, fullName_of_resolve hs, fullName_of_resolve ht]

theorem canonicalService_eq {s s' : Service} (h : canonicalService symbols file s = .ok s') :
    s' = s.retype (fullName symbols file.package) := by
  obtain ⟨name', methods'⟩ := s'
  obtain ⟨hname, hmethods⟩ := canonicalService_eq_ok.mp h
  have hmethods := eq_map_of_forall₂ (hmethods.imp fun _ _ => canonicalMethod_eq)
  rw [Service.retype, ← hmethods, ← hname]

/-- Of a file that becomes canonical, the names of types become full and all else stays. -/
theorem canonicalFile_eq {f' : ProtoFile} (h : canonicalFile symbols file = .ok f') :
    f' = file.retype (fullName symbols) := by
  obtain ⟨hfile, hmessages, hservices⟩ := canonicalFile_eq_ok.mp h
  have hmessages := canonicalMessages_eq file.messages (canonicalMessages_eq_ok.mpr hmessages)
  have hservices := eq_map_of_forall₂ (hservices.imp fun _ _ => canonicalService_eq)
  rw [hfile, hmessages, hservices]
  rfl

end Assembly

end Protograph
