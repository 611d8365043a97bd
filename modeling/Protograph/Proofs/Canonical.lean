/-
  Protograph.Proofs.Canonical — files with full type names.

  A file names types in fields and methods (`ProtoFile.references`), each from a scope.
  A reference is found when it stands for a symbol of the kind wanted in the file itself
  or in one that it imports (`Finds`).

  Proved, for messages nested to any depth:
  - `exists_canonical_iff`: a file becomes canonical if and only if its references are found.
  - `alike_canonical`: nothing but type names changes, so that what a file declares, its
    symbols, and what a pool asks of its messages stay as they are.
-/

import Protograph.Compile.Assembly
import Protograph.Proofs.Pool
import Protograph.Proofs.Symbols

namespace Protograph

/-! ## References -/

/-- A type name as written in a file. -/
structure Reference where
  /-- The scope in which it is written. -/
  scope : String
  name : String
  wantsEnum : Bool
  deriving DecidableEq

def Field.reference? (scope : String) (f : Field) : Option Reference :=
  f.typeName.map fun t => ⟨scope, t, f.type = .enumeration⟩

def Rpc.references (scope : String) (m : Rpc) : List Reference := [⟨scope, m.input, false⟩, ⟨scope, m.output, false⟩]

def Service.references (scope : String) (s : Service) : List Reference := s.methods.flatMap (Rpc.references scope)

mutual

/-- What the fields of a message and of everything nested in it refer to. -/
def Message.references (scope : String) : Message → List Reference
  | ⟨name, fields, _, nested⟩ =>
    fields.filterMap (Field.reference? (qualify scope name)) ++ Message.referencesAll (qualify scope name) nested

def Message.referencesAll (scope : String) : List Message → List Reference
  | [] => []
  | m :: ms => m.references scope ++ Message.referencesAll scope ms

end

/-- Everything that a file refers to. -/
def ProtoFile.references (f : ProtoFile) : List Reference :=
  Message.referencesAll f.package f.messages ++ f.services.flatMap (Service.references f.package)

namespace Assembly

/-- A file reaches a symbol that a reference stands for. -/
def Reaches (file : ProtoFile) (wantsEnum : Bool) (s : Symbol) : Prop :=
  s.kind = (if wantsEnum then .enumeration else .message) ∧ s.file ∈ file.path :: file.imports

def Finds (symbols : Symbols) (file : ProtoFile) (r : Reference) : Prop :=
  ∃ s, symbols.resolve r.scope r.name = some s ∧ Reaches file r.wantsEnum s

variable {symbols : Symbols} {file : ProtoFile} {scope : String}

theorem lookUp_eq_ok {name full : String} {wantsEnum : Bool} :
    lookUp symbols file scope name wantsEnum = .ok full ↔
      ∃ s, symbols.resolve scope name = some s ∧ Reaches file wantsEnum s ∧ full = "." ++ s.name := by
  unfold lookUp Reaches
  cases symbols.resolve scope name with
  | none => simp
  | some s =>
    dsimp only
    generalize (if wantsEnum = true then SymbolKind.enumeration else SymbolKind.message) = wanted
    by_cases hkind : s.kind = wanted
    · by_cases hfile : s.file ∈ file.path :: file.imports
      · simp only [ne_eq, hkind, not_true, hfile, if_false, if_true]
        constructor
        · intro h
          cases h
          exact ⟨s, rfl, ⟨hkind, hfile⟩, rfl⟩
        · intro hparts
          obtain ⟨_, he, _, rfl⟩ := hparts
          cases he
          rfl
      · simp only [ne_eq, hkind, not_true, hfile, if_false, reduceCtorEq, false_iff]
        intro hparts
        obtain ⟨_, he, ⟨_, hf⟩, _⟩ := hparts
        cases he
        exact hfile hf
    · simp only [ne_eq, hkind, not_false_eq_true, if_true, reduceCtorEq, false_iff]
      intro hparts
      obtain ⟨_, he, ⟨hk, _⟩, _⟩ := hparts
      cases he
      exact hkind hk

/-! ## Canonical elements -/

theorem canonicalField_eq_ok {f f' : Field} :
    canonicalField symbols file scope f = .ok f' ↔
      (f.typeName = none ∧ f' = f) ∨
        ∃ name s, f.typeName = some name ∧ symbols.resolve scope name = some s ∧
          Reaches file (f.type = .enumeration) s ∧ f' = { f with typeName := some ("." ++ s.name) } := by
  unfold canonicalField
  split
  · rename_i hnone
    simp [hnone, eq_comm]
  · rename_i name hname
    simp only [bind_eq_ok, lookUp_eq_ok, pure_eq_ok, hname]
    constructor
    · intro h
      obtain ⟨_, ⟨s, hs, hreach, rfl⟩, rfl⟩ := h
      exact .inr ⟨name, s, rfl, hs, hreach, rfl⟩
    · rintro (⟨hn, _⟩ | ⟨_, s, hn, hs, hreach, rfl⟩)
      · cases hn
      · cases hn
        exact ⟨_, ⟨s, hs, hreach, rfl⟩, rfl⟩

theorem canonicalMessages_eq_ok {ms ms' : List Message} :
    canonicalMessages symbols file scope ms = .ok ms' ↔
      List.Forall₂ (fun m m' => canonicalMessage symbols file scope m = .ok m') ms ms' := by
  induction ms generalizing ms' with
  | nil =>
    unfold canonicalMessages
    rw [List.forall₂_nil_left_iff]
    exact ⟨fun h => by cases h; rfl, fun h => by rw [h]⟩
  | cons m ms ih =>
    unfold canonicalMessages
    simp only [bind_eq_ok, pure_eq_ok, ih, List.forall₂_cons_left_iff]
    constructor
    · intro hparts
      obtain ⟨m', hm, ms', hms, rfl⟩ := hparts
      exact ⟨m', ms', hm, hms, rfl⟩
    · intro hparts
      obtain ⟨m', ms', hm, hms, rfl⟩ := hparts
      exact ⟨m', hm, ms', hms, rfl⟩

theorem canonicalMessage_eq_ok {m m' : Message} :
    canonicalMessage symbols file scope m = .ok m' ↔
      m'.name = m.name ∧ m'.enums = m.enums ∧
        List.Forall₂ (fun f f' => canonicalField symbols file (qualify scope m.name) f = .ok f') m.fields m'.fields ∧
        List.Forall₂ (fun x x' => canonicalMessage symbols file (qualify scope m.name) x = .ok x') m.nested m'.nested := by
  obtain ⟨name, fields, enums, nested⟩ := m
  obtain ⟨name', fields', enums', nested'⟩ := m'
  rw [canonicalMessage]
  simp only [bind_eq_ok, pure_eq_ok, mapM_eq_ok, canonicalMessages_eq_ok, Message.mk.injEq]
  constructor
  · intro h
    obtain ⟨_, hfields, _, hnested, rfl, rfl, rfl, rfl⟩ := h
    exact ⟨rfl, rfl, hfields, hnested⟩
  · intro h
    obtain ⟨rfl, rfl, hfields, hnested⟩ := h
    exact ⟨_, hfields, _, hnested, rfl, rfl, rfl, rfl⟩

theorem canonicalMethod_eq_ok {m m' : Rpc} :
    canonicalMethod symbols file m = .ok m' ↔
      ∃ s t, symbols.resolve file.package m.input = some s ∧ Reaches file false s ∧
        symbols.resolve file.package m.output = some t ∧ Reaches file false t ∧
        m' = { m with input := "." ++ s.name, output := "." ++ t.name } := by
  unfold canonicalMethod
  simp only [bind_eq_ok, lookUp_eq_ok, pure_eq_ok]
  constructor
  · intro h
    obtain ⟨_, ⟨s, hs, hreach, rfl⟩, _, ⟨t, ht, hreach', rfl⟩, rfl⟩ := h
    exact ⟨s, t, hs, hreach, ht, hreach', rfl⟩
  · intro h
    obtain ⟨s, t, hs, hreach, ht, hreach', rfl⟩ := h
    exact ⟨_, ⟨s, hs, hreach, rfl⟩, _, ⟨t, ht, hreach', rfl⟩, rfl⟩

theorem canonicalService_eq_ok {s s' : Service} :
    canonicalService symbols file s = .ok s' ↔
      s'.name = s.name ∧ List.Forall₂ (fun m m' => canonicalMethod symbols file m = .ok m') s.methods s'.methods := by
  obtain ⟨name', methods'⟩ := s'
  unfold canonicalService
  simp only [bind_eq_ok, pure_eq_ok, mapM_eq_ok, Service.mk.injEq]
  constructor
  · intro h
    obtain ⟨_, hmethods, rfl, rfl⟩ := h
    exact ⟨rfl, hmethods⟩
  · intro h
    obtain ⟨rfl, hmethods⟩ := h
    exact ⟨_, hmethods, rfl, rfl⟩

theorem canonicalFile_eq_ok {f' : ProtoFile} :
    canonicalFile symbols file = .ok f' ↔
      f' = { file with messages := f'.messages, services := f'.services } ∧
        List.Forall₂ (fun m m' => canonicalMessage symbols file file.package m = .ok m') file.messages f'.messages ∧
        List.Forall₂ (fun s s' => canonicalService symbols file s = .ok s') file.services f'.services := by
  unfold canonicalFile
  simp only [bind_eq_ok, pure_eq_ok, mapM_eq_ok, canonicalMessages_eq_ok]
  constructor
  · intro h
    obtain ⟨ms, hms, ss, hss, rfl⟩ := h
    exact ⟨rfl, hms, hss⟩
  · intro h
    obtain ⟨he, hms, hss⟩ := h
    exact ⟨_, hms, _, hss, he.symm⟩

/-! ## Files whose references are found -/

theorem exists_lookUp_iff {name : String} {wantsEnum : Bool} :
    (∃ full, lookUp symbols file scope name wantsEnum = .ok full) ↔ Finds symbols file ⟨scope, name, wantsEnum⟩ := by
  simp only [lookUp_eq_ok, Finds]
  exact ⟨fun ⟨_, s, hs, hreach, _⟩ => ⟨s, hs, hreach⟩, fun ⟨s, hs, hreach⟩ => ⟨_, s, hs, hreach, rfl⟩⟩

theorem exists_canonicalField_iff {f : Field} :
    (∃ f', canonicalField symbols file scope f = .ok f') ↔ ∀ r ∈ f.reference? scope, Finds symbols file r := by
  unfold canonicalField Field.reference?
  cases f.typeName with
  | none => simp
  | some name =>
    have hone : (∀ r ∈ some name |>.map fun t => (⟨scope, t, f.type = .enumeration⟩ : Reference), Finds symbols file r) ↔
        Finds symbols file ⟨scope, name, f.type = .enumeration⟩ := by simp
    rw [hone, ← exists_lookUp_iff]
    simp only [bind_eq_ok, pure_eq_ok]
    constructor
    · intro h
      obtain ⟨_, full, h, _⟩ := h
      exact ⟨full, h⟩
    · intro h
      obtain ⟨full, h⟩ := h
      exact ⟨_, full, h, rfl⟩

mutual

theorem exists_canonicalMessage_iff (m : Message) {scope : String} :
    (∃ m', canonicalMessage symbols file scope m = .ok m') ↔ ∀ r ∈ m.references scope, Finds symbols file r := by
  obtain ⟨name, fields, enums, nested⟩ := m
  unfold canonicalMessage Message.references
  have hfields : (∃ fs, fields.mapM (canonicalField symbols file (qualify scope name)) = .ok fs) ↔
      ∀ r ∈ fields.filterMap (Field.reference? (qualify scope name)), Finds symbols file r := by
    simp only [exists_mapM_iff, exists_canonicalField_iff, List.mem_filterMap, Option.mem_def]
    exact ⟨fun h r ⟨f, hf, hr⟩ => h f hf r hr, fun h f hf r hr => h r ⟨f, hf, hr⟩⟩
  simp only [List.forall_mem_append, ← hfields, ← exists_canonicalMessages_iff nested, bind_eq_ok, pure_eq_ok]
  constructor
  · intro hparts
    obtain ⟨_, fs, hfs, ns, hns, _⟩ := hparts
    exact ⟨⟨fs, hfs⟩, ns, hns⟩
  · intro hparts
    obtain ⟨⟨fs, hfs⟩, ns, hns⟩ := hparts
    exact ⟨_, fs, hfs, ns, hns, rfl⟩

theorem exists_canonicalMessages_iff (ms : List Message) {scope : String} :
    (∃ ms', canonicalMessages symbols file scope ms = .ok ms') ↔
      ∀ r ∈ Message.referencesAll scope ms, Finds symbols file r := by
  cases ms with
  | nil => simp [canonicalMessages, Message.referencesAll]
  | cons m ms =>
    unfold canonicalMessages Message.referencesAll
    simp only [List.forall_mem_append, ← exists_canonicalMessage_iff m, ← exists_canonicalMessages_iff ms, bind_eq_ok,
      pure_eq_ok]
    constructor
    · intro h
      obtain ⟨_, m', hm, ms', hms, _⟩ := h
      exact ⟨⟨m', hm⟩, ms', hms⟩
    · intro h
      obtain ⟨⟨m', hm⟩, ms', hms⟩ := h
      exact ⟨_, m', hm, ms', hms, rfl⟩

end

theorem exists_canonicalMethod_iff {m : Rpc} :
    (∃ m', canonicalMethod symbols file m = .ok m') ↔ ∀ r ∈ m.references file.package, Finds symbols file r := by
  unfold canonicalMethod Rpc.references
  simp only [List.forall_mem_cons, ← exists_lookUp_iff, bind_eq_ok, pure_eq_ok]
  constructor
  · intro h
    obtain ⟨_, input, hi, output, ho, _⟩ := h
    exact ⟨⟨input, hi⟩, ⟨output, ho⟩, by simp⟩
  · intro h
    obtain ⟨⟨input, hi⟩, ⟨output, ho⟩, _⟩ := h
    exact ⟨_, input, hi, output, ho, rfl⟩

/-- A file becomes canonical if and only if all its references are found. -/
theorem exists_canonical_iff :
    (∃ f', canonicalFile symbols file = .ok f') ↔ ∀ r ∈ file.references, Finds symbols file r := by
  have hservice : ∀ s : Service, (∃ s', canonicalService symbols file s = .ok s') ↔
      ∀ r ∈ s.references file.package, Finds symbols file r := by
    intro s
    unfold canonicalService Service.references
    simp only [List.forall_mem_flatMap, ← exists_canonicalMethod_iff, ← exists_mapM_iff, bind_eq_ok, pure_eq_ok]
    exact ⟨fun ⟨_, ms, hms, _⟩ => ⟨ms, hms⟩, fun ⟨ms, hms⟩ => ⟨_, ms, hms, rfl⟩⟩
  unfold canonicalFile ProtoFile.references
  simp only [List.forall_mem_append, List.forall_mem_flatMap, ← hservice, ← exists_mapM_iff,
    ← exists_canonicalMessages_iff, bind_eq_ok, pure_eq_ok]
  constructor
  · intro h
    obtain ⟨_, ms, hms, ss, hss, _⟩ := h
    exact ⟨⟨ms, hms⟩, ss, hss⟩
  · intro h
    obtain ⟨⟨ms, hms⟩, ss, hss⟩ := h
    exact ⟨_, ms, hms, ss, hss, rfl⟩

end Assembly

/-! ## What does not change -/

/-- What a field has besides the name of its type. -/
def Field.signature (f : Field) : String × Int × FieldType × Bool := (f.name, f.number, f.type, f.typeName.isSome)

theorem wellNamed_congr {m m' : Message} (henums : m'.enums = m.enums)
    (hfields : m'.fields.map Field.signature = m.fields.map Field.signature) : m'.WellNamed ↔ m.WellNamed := by
  have hcamel : ∀ fs : List Field, fs.map (fun f => Pool.foldedName f.name) =
      (fs.map Field.signature).map fun x => Pool.foldedName x.1 := by simp [Field.signature]
  constructor
  · intro h
    obtain ⟨hc, hb⟩ := h
    exact ⟨by rwa [hcamel, ← hfields, ← hcamel], henums ▸ hb⟩
  · intro h
    obtain ⟨hc, hb⟩ := h
    exact ⟨by rwa [hcamel, hfields, ← hcamel], henums ▸ hb⟩

theorem wellNumbered_congr {m m' : Message} (henums : m'.enums = m.enums)
    (hfields : m'.fields.map Field.signature = m.fields.map Field.signature) : m'.WellNumbered ↔ m.WellNumbered := by
  have hnumbers : ∀ fs : List Field, fs.map (·.number) = (fs.map Field.signature).map (·.2.1) := by
    simp [Field.signature]
  have hallowed : ∀ fs : List Field, (∀ f ∈ fs, Pool.isFieldNumber f.number = true) ↔
      ∀ x ∈ fs.map Field.signature, Pool.isFieldNumber x.2.1 = true := by simp [Field.signature]
  have htyped : ∀ fs : List Field,
      (∀ f ∈ fs, f.type.isNamed = true ∨ f.type = .group → f.typeName.isSome = true) ↔
        ∀ x ∈ fs.map Field.signature, x.2.2.1.isNamed = true ∨ x.2.2.1 = .group → x.2.2.2 = true := by
    simp [Field.signature]
  constructor
  · intro h
    obtain ⟨ha, ht, hd, hv⟩ := h
    refine ⟨?_, ?_, by rwa [hnumbers, ← hfields, ← hnumbers], henums ▸ hv⟩
    · rwa [hallowed, ← hfields, ← hallowed]
    · rwa [htyped, ← hfields, ← htyped]
  · intro h
    obtain ⟨ha, ht, hd, hv⟩ := h
    refine ⟨?_, ?_, by rwa [hnumbers, hfields, ← hnumbers], henums ▸ hv⟩
    · rwa [hallowed, hfields, ← hallowed]
    · rwa [htyped, hfields, ← htyped]

/-- Lists of messages that declare the same and keep the same rules. -/
structure Message.Alike (ms ms' : List Message) : Prop where
  declared : ∀ scope, Message.declaredAll scope ms' = Message.declaredAll scope ms
  symbols : ∀ path scope, Message.symbolsAll path scope ms' = Message.symbolsAll path scope ms
  named : (∀ m ∈ Message.treeAll ms', m.WellNamed) ↔ ∀ m ∈ Message.treeAll ms, m.WellNamed
  numbered : (∀ m ∈ Message.treeAll ms', m.WellNumbered) ↔ ∀ m ∈ Message.treeAll ms, m.WellNumbered

namespace Assembly

variable {symbols : Symbols} {file : ProtoFile} {scope : String}

theorem signature_canonicalField {f f' : Field} (h : canonicalField symbols file scope f = .ok f') :
    f'.signature = f.signature := by
  rcases canonicalField_eq_ok.mp h with ⟨_, rfl⟩ | ⟨_, _, hname, _, _, rfl⟩
  · rfl
  · simp [Field.signature, hname]

theorem name_canonicalField {f f' : Field} (h : canonicalField symbols file scope f = .ok f') : f'.name = f.name :=
  congrArg Prod.fst (signature_canonicalField h)

theorem alike_canonicalMessages : ∀ (ms : List Message) {scope : String} {ms' : List Message},
    canonicalMessages symbols file scope ms = .ok ms' → Message.Alike ms ms'
  | [], _, _, h => by
    cases h
    exact ⟨fun _ => rfl, fun _ _ => rfl, Iff.rfl, Iff.rfl⟩
  | ⟨name, fields, enums, nested⟩ :: ms, scope, _, h => by
    obtain ⟨⟨name', fields', enums', nested'⟩, ms', hm, hms, rfl⟩ :=
      List.forall₂_cons_left_iff.mp (canonicalMessages_eq_ok.mp h)
    obtain ⟨hname, henums, hfields, hnested⟩ := canonicalMessage_eq_ok.mp hm
    dsimp only at hname henums hfields hnested
    subst hname henums
    have hin := alike_canonicalMessages nested (canonicalMessages_eq_ok.mpr hnested)
    have hafter := alike_canonicalMessages ms (canonicalMessages_eq_ok.mpr hms)
    have hsignatures : fields'.map Field.signature = fields.map Field.signature :=
      map_eq_of_forall₂ (hfields.imp fun _ _ => signature_canonicalField)
    have hnames : ∀ scope : String, fields'.map (fun f => qualify scope f.name) = fields.map fun f => qualify scope f.name :=
      fun scope => map_eq_of_forall₂ (hfields.imp fun _ _ hf => by rw [name_canonicalField hf])
    refine ⟨fun s => ?_, fun p s => ?_, ?_, ?_⟩
    · simp only [Message.declaredAll, Message.declared, hnames, hin.declared, hafter.declared]
    · simp only [Message.symbolsAll, Message.symbols, hin.symbols, hafter.symbols]
    · simp only [Message.treeAll, Message.tree, List.cons_append, List.forall_mem_cons, List.forall_mem_append, hin.named,
        hafter.named]
      exact and_congr_left' (wellNamed_congr rfl hsignatures)
    · simp only [Message.treeAll, Message.tree, List.cons_append, List.forall_mem_cons, List.forall_mem_append,
        hin.numbered, hafter.numbered]
      exact and_congr_left' (wellNumbered_congr rfl hsignatures)

theorem declared_canonicalService {s s' : Service} (h : canonicalService symbols file s = .ok s') (scope : String) :
    s'.declared scope = s.declared scope := by
  obtain ⟨hname, hmethods⟩ := canonicalService_eq_ok.mp h
  have hnames : s'.methods.map (fun m => qualify (qualify scope s.name) m.name) =
      s.methods.map fun m => qualify (qualify scope s.name) m.name := by
    refine map_eq_of_forall₂ (hmethods.imp fun _ _ hm => ?_)
    obtain ⟨_, _, _, _, _, _, rfl⟩ := canonicalMethod_eq_ok.mp hm
    rfl
  unfold Service.declared
  rw [hname, hnames]

/-- Files that claim the same names, define the same symbols and keep the same rules. -/
structure Alike (f f' : ProtoFile) : Prop where
  path : f'.path = f.path
  claims : Pool.claimsOf f' = Pool.claimsOf f
  symbols : f'.symbols = f.symbols
  named : ((∀ m ∈ f'.tree, m.WellNamed) ∧ ∀ e ∈ f'.enums, e.Begins) ↔
    (∀ m ∈ f.tree, m.WellNamed) ∧ ∀ e ∈ f.enums, e.Begins
  numbered : ((∀ m ∈ f'.tree, m.WellNumbered) ∧ ∀ e ∈ f'.enums, e.Numbered) ↔
    (∀ m ∈ f.tree, m.WellNumbered) ∧ ∀ e ∈ f.enums, e.Numbered

/-- Nothing but type names changes in a file that becomes canonical. -/
theorem alike_canonical {f' : ProtoFile} (h : canonicalFile symbols file = .ok f') : Alike file f' := by
  obtain ⟨hfile, hmessages, hservices⟩ := canonicalFile_eq_ok.mp h
  have halike := alike_canonicalMessages file.messages (canonicalMessages_eq_ok.mpr hmessages)
  have hdeclared : f'.services.flatMap (Service.declared file.package) =
      file.services.flatMap (Service.declared file.package) := by
    rw [List.flatMap_def, List.flatMap_def,
      map_eq_of_forall₂ (hservices.imp fun _ _ hs => declared_canonicalService hs file.package)]
  rw [hfile]
  refine ⟨rfl, ?_, ?_, ?_, ?_⟩
  · simp only [Pool.claimsOf, ProtoFile.declared, halike.declared, hdeclared]
  · simp only [ProtoFile.symbols, halike.symbols]
  · exact and_congr_left' halike.named
  · exact and_congr_left' halike.numbered

/-- A pool accepts files with full type names if and only if it accepts them without. -/
theorem accepts_alike {front files files' : List ProtoFile} (h : List.Forall₂ Alike files files') :
    Pool.Accepts (front ++ files') ↔ Pool.Accepts (front ++ files) := by
  have hpaths : files'.map (·.path) = files.map (·.path) := map_eq_of_forall₂ (h.imp fun _ _ => Alike.path)
  have hclaims : files'.flatMap Pool.claimsOf = files.flatMap Pool.claimsOf := by
    rw [List.flatMap_def, List.flatMap_def, map_eq_of_forall₂ (h.imp fun _ _ => Alike.claims)]
  have hall : ∀ {P : ProtoFile → Prop}, (∀ f f', Alike f f' → (P f' ↔ P f)) →
      ((∀ f ∈ files', P f) ↔ ∀ f ∈ files, P f) := by
    intro P hP
    constructor
    · intro hf' f hf
      obtain ⟨f', hmem, ha⟩ := exists_of_forall₂_left h hf
      exact (hP f f' ha).mp (hf' f' hmem)
    · intro hf f' hf'
      obtain ⟨f, hmem, ha⟩ := exists_of_forall₂_right h hf'
      exact (hP f f' ha).mpr (hf f hmem)
  have hnamed := hall fun _ _ ha => ha.named
  have hnumbered := hall fun _ _ ha => ha.numbered
  constructor
  · intro hparts
    obtain ⟨h1, h2, h3, h4⟩ := hparts
    rw [List.map_append, hpaths, ← List.map_append] at h1
    rw [List.flatMap_append, hclaims, ← List.flatMap_append] at h2
    rw [List.forall_mem_append, hnamed, ← List.forall_mem_append] at h3
    rw [List.forall_mem_append, hnumbered, ← List.forall_mem_append] at h4
    exact ⟨h1, h2, h3, h4⟩
  · intro hparts
    obtain ⟨h1, h2, h3, h4⟩ := hparts
    rw [List.map_append, ← hpaths, ← List.map_append] at h1
    rw [List.flatMap_append, ← hclaims, ← List.flatMap_append] at h2
    rw [List.forall_mem_append, ← hnamed, ← List.forall_mem_append] at h3
    rw [List.forall_mem_append, ← hnumbered, ← List.forall_mem_append] at h4
    exact ⟨h1, h2, h3, h4⟩

end Assembly

end Protograph
