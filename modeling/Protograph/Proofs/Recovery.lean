/-
  Protograph.Proofs.Recovery — a compilation read back from its bytes.

  The wire has 32 bits for a number. That is enough for the fields of a descriptor set, whose
  numbers a pool checks (`fits_of_isFieldNumber`), and for enumerations, whose numbers come
  from the documents (`Graph.Fits32`).

  Proved: `read_encode`. The bytes of the set read as its files in order, all of them as they
  are but for the oneofs of well-known ones. So no two sets have the same bytes.
-/

import Protograph.Proofs.Acceptance
import Protograph.Proofs.Consistency
import Protograph.Proofs.Decoding
import Protograph.Proofs.Evaluation
import Protograph.Proofs.Fatal

namespace Protograph

/-- The numbers that a field's options give to its values have 32 bits, as numbers in documents
    have. -/
def FieldSpec.Fits32 (f : FieldSpec) : Prop :=
  ∀ options ∈ f.annotations.enumeration, ∀ n ∈ options.numbers, fitsSigned 32 n.2 = true

instance (f : FieldSpec) : Decidable f.Fits32 :=
  inferInstanceAs (Decidable (∀ options ∈ f.annotations.enumeration, ∀ n ∈ options.numbers, fitsSigned 32 n.2 = true))

def Graph.Fits32 (g : Graph) : Prop := ∀ e ∈ g.entities, ∀ f ∈ e.ownFields, f.Fits32

instance (g : Graph) : Decidable g.Fits32 :=
  inferInstanceAs (Decidable (∀ e ∈ g.entities, ∀ f ∈ e.ownFields, f.Fits32))

/-! ## Enumerations -/

theorem fitsSigned_zero : fitsSigned 32 0 = true := by decide

theorem Enumeration.fits_of_build {entity : String} {field : FieldSpec} {e : Enum} (h : build entity field = .ok e)
    (hfits : field.Fits32) : e.Fits32 := by
  obtain ⟨options, hoptions, _, rfl, _⟩ := build_ok h
  intro v hv
  rcases List.mem_append.mp hv with hv | hv
  · split at hv
    · rw [List.mem_singleton.mp hv]
      exact fitsSigned_zero
    · cases hv
  · obtain ⟨value, _, rfl⟩ := List.mem_map.mp hv
    dsimp only
    cases hn : options.numbers.get? value with
    | none => exact fitsSigned_zero
    | some n => exact hfits options hoptions _ (Table.mem_of_get? hn)

namespace Compilation

variable {graph graph' : Graph} {standard standard' : String} {c c' : Compiled}

/-- Every enumeration in the output of an entity is that of one of its fields. -/
theorem enum_of_buildEntity {e : Entity} {package : String} {packages : Table String} {o : EntityOutput}
    (h : buildEntity e package graph packages = .ok o) {m : Message} (hm : m ∈ o.messages) {en : Enum} (hen : en ∈ m.enums) :
    ∃ f ∈ e.ownFields, Enumeration.build e.name f = .ok en := by
  obtain ⟨messages, more, hmessages, hservice, _, ho, _⟩ := buildEntity_ok h
  obtain ⟨fields, edges, enums, rfl, _, _, henums, _⟩ := buildMessages_ok hmessages
  rw [ho] at hm
  rcases List.mem_append.mp hm with hm | hm
  · rcases List.mem_cons.mp hm with rfl | hm
    · obtain ⟨f, hf, hbuild⟩ := exists_of_forall₂_right henums hen
      exact ⟨f, List.mem_of_mem_filter hf, hbuild⟩
    · obtain ⟨f, _, rfl⟩ := List.mem_map.mp hm
      cases hen
  · rw [enums_of_brought hservice hm] at hen
    cases hen

theorem enums_fit (hfits : graph.Fits32) {u : PackageUnit} (hu : u ∈ unitsOf graph standard) {m : Message}
    (hm : m ∈ u.messages) : ∀ e ∈ m.enums, e.Fits32 := by
  intro en hen
  obtain ⟨p, _, rfl⟩ := mem_unitsOf.mp hu
  obtain ⟨⟨name, o⟩, hin, hm⟩ := List.mem_flatMap.mp hm
  obtain ⟨e, he, _, _, hbuilt⟩ := built_of_settled (mem_survivors.mp (List.mem_of_mem_filter hin))
  obtain ⟨f, hf, hbuild⟩ := enum_of_buildEntity hbuilt hm hen
  exact Enumeration.fits_of_build hbuild (hfits e he f hf)

/-! ## Files -/

theorem fits_of_isFieldNumber {n : Int} (h : Pool.isFieldNumber n = true) : fitsSigned 32 n = true := by
  obtain ⟨⟨hlow, hhigh⟩, _⟩ := isFieldNumber_iff.mp h
  have hhigh : n ≤ 536870911 := hhigh
  have hbound : ((Nat.pow 2 (32 - 1) : Nat) : Int) = 2147483648 := rfl
  simp only [fitsSigned, hbound, Bool.and_eq_true, decide_eq_true_eq]
  omega

/-- A message that differs from one without nested messages in the names of types only has
    none either, and has the same enumerations. -/
theorem enums_of_untyped {m m' : Message} (h : m'.untyped = m.untyped) (hflat : m.nested = []) :
    m'.nested = [] ∧ m'.enums = m.enums := by
  obtain ⟨name, fields, enums, nested⟩ := m
  obtain ⟨name', fields', enums', nested'⟩ := m'
  obtain rfl : nested = [] := hflat
  simp only [Message.untyped, Message.mk.injEq, Message.untypedAll_eq] at h
  obtain ⟨_, _, henums, hnested⟩ := h
  exact ⟨List.map_eq_nil_iff.mp hnested, henums⟩

/-- The files of the units in the set. -/
theorem unit_of_file (h : compile graph standard = .ok c) {f : ProtoFile} (hf : f ∈ c.set.files) :
    ∃ u ∈ unitsOf graph standard, f.untyped = u.toFile.untyped := by
  obtain ⟨hunits, hset, _⟩ := compile_ok h
  obtain ⟨_, order, _, _, _, hfiles, _⟩ := Assembly.assemble_eq_ok.mp hset
  obtain ⟨f₀, hf₀, hcanonical⟩ := exists_of_forall₂_right hfiles hf
  obtain ⟨u, hu, rfl⟩ := Assembly.exists_of_mem_filesAt hf₀
  rw [hunits] at hu
  exact ⟨u, hu, Assembly.untyped_canonicalFile hcanonical⟩

theorem written_of_file (h : compile graph standard = .ok c) {f : ProtoFile} (hf : f ∈ c.set.files) : f.written = f := by
  obtain ⟨u, _, huntyped⟩ := unit_of_file h hf
  have hnone : f.oneofs = [] := congrArg ProtoFile.oneofs huntyped
  obtain ⟨path, package, imports, messages, services, enums, oneofs⟩ := f
  obtain rfl : oneofs = [] := hnone
  rfl

theorem fits_of_file (h : compile graph standard = .ok c) (hfits : graph.Fits32) {f : ProtoFile} (hf : f ∈ c.set.files) :
    f.Fits32 := by
  obtain ⟨_, hset, _⟩ := compile_ok h
  obtain ⟨_, _, _, _, _, _, hpool⟩ := Assembly.assemble_eq_ok.mp hset
  obtain ⟨hnumbered, _⟩ := hpool.numbered f (List.mem_append_right _ hf)
  obtain ⟨u, hu, huntyped⟩ := unit_of_file h hf
  have hmessages : f.messages.map Message.untyped = u.messages.map Message.untyped := by
    rw [← Message.untypedAll_eq, ← Message.untypedAll_eq]
    exact congrArg ProtoFile.messages huntyped
  have hsame : ∀ m' ∈ f.messages, ∃ m ∈ u.messages, m'.untyped = m.untyped := by
    intro m' hm'
    have hmem : m'.untyped ∈ u.messages.map Message.untyped := hmessages ▸ List.mem_map_of_mem hm'
    obtain ⟨m, hm, he⟩ := List.mem_map.mp hmem
    exact ⟨m, hm, he.symm⟩
  have hflat : ∀ m' ∈ f.messages, m'.nested = [] := by
    intro m' hm'
    obtain ⟨m, hm, he⟩ := hsame m' hm'
    exact (enums_of_untyped he (sound_unitsOf hu hm).flat).1
  have htree : f.tree = f.messages := treeAll_of_flat hflat
  have henums : f.enums = [] := congrArg ProtoFile.enums huntyped
  refine ⟨fun m' hm' => ⟨fun x hx => ?_, fun e he => ?_⟩, by simp [henums]⟩
  · exact fits_of_isFieldNumber ((hnumbered m' hm').allowed x hx)
  · rw [htree] at hm'
    obtain ⟨m, hm, hm'm⟩ := hsame m' hm'
    rw [(enums_of_untyped hm'm (sound_unitsOf hu hm).flat).2] at he
    exact enums_fit hfits hu hm e he

theorem fits_wellKnown : ∀ f ∈ WellKnown.files, f.Fits32 := by
  have hnumbers : WellKnown.files.all (fun f => f.tree.all (fun m => m.fields.all (fun x => fitsSigned 32 x.number) &&
      m.enums.all fun e => e.values.all fun v => fitsSigned 32 v.number) &&
      f.enums.all fun e => e.values.all fun v => fitsSigned 32 v.number) = true := by decide +kernel
  intro f hf
  have hf := List.all_eq_true.mp hnumbers f hf
  simp only [Bool.and_eq_true, List.all_eq_true] at hf
  exact ⟨fun m hm => ⟨(hf.1 m hm).1, (hf.1 m hm).2⟩, hf.2⟩

/-! ## Bytes -/

theorem fits_of_set (h : compile graph standard = .ok c) (hfits : graph.Fits32) : ∀ f ∈ c.set.all, f.Fits32 := by
  obtain ⟨_, hset, _⟩ := compile_ok h
  obtain ⟨_, _, _, _, hwellKnown, _⟩ := Assembly.assemble_eq_ok.mp hset
  intro f hf
  rcases List.mem_append.mp hf with hf | hf
  · rw [hwellKnown, Assembly.standing] at hf
    split at hf
    · cases hf
    · exact fits_wellKnown f hf
  · exact fits_of_file h hfits hf

/-- The well-known files are in a set if and only if it has any file. -/
theorem set_cases (h : compile graph standard = .ok c) : c.set = ⟨[], []⟩ ∨ c.set.wellKnown = WellKnown.files := by
  obtain ⟨_, hset, _⟩ := compile_ok h
  cases hunits : c.units with
  | nil =>
    rw [hunits] at hset
    have hnone : assemble [] = .ok ⟨[], []⟩ := rfl
    rw [hnone] at hset
    exact .inl (Except.ok.inj hset).symm
  | cons u units =>
    obtain ⟨_, _, _, _, hwellKnown, _⟩ := Assembly.assemble_eq_ok.mp hset
    rw [hunits] at hwellKnown
    exact .inr hwellKnown

theorem read_encode_set (h : compile graph standard = .ok c) (hfits : graph.Fits32) :
    Wire.readFiles c.set.encode = some (c.set.wellKnown.map ProtoFile.written ++ c.set.files) := by
  have hfiles : c.set.files.map ProtoFile.written = c.set.files := by
    rw [List.map_congr_left fun f hf => written_of_file h hf, List.map_id']
  have hread := Wire.readFiles_encodeFiles (fits_of_set h hfits)
  rw [DescriptorSet.all, Wire.encodeFiles_append, List.map_append, hfiles] at hread
  exact hread

/-- The bytes of a compiled set read as its files, those of the units as they are. Two
    compilations with the same bytes have the same set. -/
theorem read_encode (h : compile graph standard = .ok c) (hfits : graph.Fits32) (h' : compile graph' standard' = .ok c')
    (hfits' : graph'.Fits32) :
    Wire.readFiles c.set.encode = some (c.set.wellKnown.map ProtoFile.written ++ c.set.files) ∧
      (c.set.encode = c'.set.encode → c.set = c'.set) := by
  refine ⟨read_encode_set h hfits, fun hbytes => ?_⟩
  have hread := read_encode_set h hfits
  rw [hbytes, read_encode_set h' hfits'] at hread
  have hsame := Option.some.inj hread
  rcases set_cases h with he | hw <;> rcases set_cases h' with he' | hw'
  · rw [he, he']
  · rw [he, hw'] at hsame
    cases hsame
  · rw [hw, he'] at hsame
    cases hsame
  · rw [hw, hw'] at hsame
    have hfiles := List.append_cancel_left hsame
    have hset : ∀ {set : DescriptorSet}, set.wellKnown = WellKnown.files → set = ⟨WellKnown.files, set.files⟩ := by
      rintro ⟨wellKnown, files⟩ rfl
      rfl
    rw [hset hw, hset hw', hfiles]

/-- An entity with an enumeration of the largest and the least number. -/
def signedGraph : Graph :=
  ⟨[{ name := "Tide"
      fields :=
        [{ name := "level", kind := .enumeration, values := ["high", "low"]
           annotations :=
             { field := some { number := 2 }
               enumeration := some { numbers := [("high", 2147483647), ("low", -2147483648)] } } }]
      annotations := { message := some {} } }], by decide⟩

theorem read_encode_signedGraph : ∃ c c', compile signedGraph "sea" = .ok c ∧ compile signedGraph "air" = .ok c' ∧
    signedGraph.Fits32 ∧ Wire.readFiles c.set.encode = some (c.set.wellKnown.map ProtoFile.written ++ c.set.files) ∧
      (c.set.encode = c'.set.encode → c.set = c'.set) := by
  have hsea : ∃ c, compile signedGraph "sea" = .ok c ∧ c.errors.isEmpty = true := exists_compiled_of_apart (by decide +kernel)
  have hair : ∃ c, compile signedGraph "air" = .ok c ∧ c.errors.isEmpty = true := exists_compiled_of_apart (by decide +kernel)
  obtain ⟨c, hc, _⟩ := hsea
  obtain ⟨c', hc', _⟩ := hair
  have hfits : signedGraph.Fits32 := by decide
  exact ⟨c, c', hc, hc', hfits, read_encode hc hfits hc' hfits⟩

end Compilation

end Protograph
