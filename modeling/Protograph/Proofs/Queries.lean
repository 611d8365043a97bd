/-
  Protograph.Proofs.Queries — what a compilation answers about its entities.

  An entity leads to a file through its package and the path of that, and to a message
  through the package of the file and the full name. The names in a set are distinct
  (`nodup_named`), so a message is found if it is there; it is looked for without the dot
  that its full name may begin with.

  Proved, for every compilation that succeeds:
  - `queries_agree`: an entity has a file if and only if it is generated, the one of its path.
    It has its own message if and only if its package is not overtaken and does not begin
    with a dot. All others have the error of their outcome, and the failed, the skipped and
    the generated entities are all there are.
  - `message_lost`: a generated entity need not have a message.
-/

import Protograph.Proofs.Retention

namespace Protograph

/-! ## Messages by name -/

mutual

theorem Message.named_sublist (m : Message) (path scope : String) :
    ((m.named scope).map Prod.fst).Sublist (Symbols.names (m.symbols path scope)) := by
  obtain ⟨name, fields, enums, nested⟩ := m
  simp only [Message.named, Message.symbols, Symbols.names, List.map_cons, List.map_append]
  have hnested := Message.namedAll_sublist nested path (qualify scope name)
  exact List.Sublist.cons_cons _ (hnested.trans (List.sublist_append_left _ _))

theorem Message.namedAll_sublist (ms : List Message) (path scope : String) :
    ((Message.namedAll scope ms).map Prod.fst).Sublist (Symbols.names (Message.symbolsAll path scope ms)) := by
  cases ms with
  | nil => exact List.Sublist.slnil
  | cons m ms =>
    simp only [Message.namedAll, Message.symbolsAll, Symbols.names, List.map_append]
    exact (m.named_sublist path scope).append (Message.namedAll_sublist ms path scope)

end

theorem Message.mem_namedAll {ms : List Message} {m : Message} (hm : m ∈ ms) (scope : String) :
    (qualify scope m.name, m) ∈ Message.namedAll scope ms := by
  induction ms with
  | nil => cases hm
  | cons x ms ih =>
    rw [Message.namedAll, List.mem_append]
    rcases List.mem_cons.mp hm with rfl | hm
    · left
      obtain ⟨name, fields, enums, nested⟩ := m
      rw [Message.named]
      exact List.mem_cons_self
    · exact .inr (ih hm)

theorem Message.name_of_untyped {m m' : Message} (h : m.untyped = m'.untyped) : m.name = m'.name := by
  obtain ⟨name, fields, enums, nested⟩ := m
  obtain ⟨name', fields', enums', nested'⟩ := m'
  rw [Message.untyped, Message.untyped] at h
  exact (Message.mk.inj h).1

/-- The messages of a set, by their full names. -/
def DescriptorSet.named (set : DescriptorSet) : Table Message :=
  set.all.flatMap fun f => Message.namedAll f.package f.messages

/-- The full names of the messages of a set are distinct. -/
theorem Assembly.nodup_named {units : List PackageUnit} {set : DescriptorSet} (h : assemble units = .ok set) :
    set.named.keys.Nodup := by
  obtain ⟨_, _, _, _, _, _, hpool⟩ := assemble_eq_ok.mp h
  have hsublist : set.named.keys.Sublist (Symbols.names (set.all.flatMap ProtoFile.symbols)) := by
    simp only [DescriptorSet.named, Table.keys, Symbols.names, List.map_flatMap]
    refine List.Sublist.flatMap_right _ fun f _ => ?_
    rw [ProtoFile.symbols, List.map_append]
    exact (Message.namedAll_sublist f.messages f.path f.package).trans (List.sublist_append_left _ _)
  exact hsublist.nodup (names_nodup_of_pairwise hpool.names)

/-- A message of a file is found by its full name. -/
theorem Assembly.message?_of_mem {units : List PackageUnit} {set : DescriptorSet} (h : assemble units = .ok set)
    {f : ProtoFile} (hf : f ∈ set.all) {m : Message} (hm : m ∈ f.messages) {asked : String}
    (hasked : Text.withoutLeadingDot asked = qualify f.package m.name) :
    set.message? asked = some (qualify f.package m.name, m) := by
  have hmem : (qualify f.package m.name, m) ∈ set.named := List.mem_flatMap.mpr ⟨f, hf, Message.mem_namedAll hm _⟩
  have hfound : set.named.get? (qualify f.package m.name) = some m := (Table.get?_eq_some (nodup_named h)).mpr hmem
  unfold DescriptorSet.message?
  rw [hasked]
  show Option.map _ (set.named.get? _) = _
  rw [hfound]
  rfl

/-! ## The name that is asked for -/

theorem withoutLeadingDot_of_relative {name : String} (h : Text.startsWithDot name = false) :
    Text.withoutLeadingDot name = name := by
  unfold Text.withoutLeadingDot
  split
  · rename_i cs hname
    simp [Text.startsWithDot, hname] at h
  · rfl

theorem withoutLeadingDot_dot (rest : String) : Text.withoutLeadingDot ("." ++ rest) = rest := by
  simp [Text.withoutLeadingDot]

/-- What is asked for is the full name, unless the package begins with a dot. -/
theorem withoutLeadingDot_eq_iff (package name : String) :
    Text.withoutLeadingDot (package ++ "." ++ name) = qualify package name ↔ Text.startsWithDot package = false := by
  by_cases hempty : package = ""
  · subst hempty
    have hroot : Text.startsWithDot "" = false := rfl
    simp [hroot, qualify, withoutLeadingDot_dot]
  · rw [qualify, if_neg hempty, String.append_assoc]
    have hstarts : Text.startsWithDot (package ++ ("." ++ name)) = Text.startsWithDot package :=
      Text.startsWithDot_append hempty _
    constructor
    · intro hsame
      by_contra hdot
      rw [Bool.not_eq_false] at hdot
      obtain ⟨rest, hrest⟩ := Text.startsWithDot_iff.mp (hstarts.trans hdot)
      rw [hrest, withoutLeadingDot_dot] at hsame
      have hlength := congrArg String.length hsame
      simp at hlength
    · exact fun hrelative => withoutLeadingDot_of_relative (hstarts.trans hrelative)

namespace Compiled

variable {graph : Graph} {standard : String} {c : Compiled}

/-! ## The outcomes apart -/

/-- The entities that are generated. -/
def generated (c : Compiled) : List String :=
  c.statuses.filterMap fun (e, s) => match s with
    | .generated _ => some e
    | _ => none

/-- The failed, the skipped and the generated entities are the entities of the graph, and all
    of them come in the order of the graph. -/
structure Parted (c : Compiled) (graph : Graph) : Prop where
  all : c.statuses.keys = graph.entities.map (·.name)
  failed : ∀ e x, (e, x) ∈ c.errors ↔ c.status? e = some (.failed x)
  skipped : ∀ e, e ∈ c.skipped ↔ c.status? e = some .skipped
  generated : ∀ e, e ∈ c.generated ↔ c.Generated e
  ordered : c.errors.keys.Sublist c.statuses.keys ∧ c.skipped.Sublist c.statuses.keys ∧
    c.generated.Sublist c.statuses.keys
  parts : (c.errors.keys ++ c.skipped ++ c.generated).Perm c.statuses.keys

theorem parts_perm (c : Compiled) : (c.errors.keys ++ c.skipped ++ c.generated).Perm c.statuses.keys := by
  obtain ⟨units, set, statuses⟩ := c
  simp only [errors, skipped, generated, Table.keys]
  induction statuses with
  | nil => exact .nil
  | cons entry statuses ih =>
    obtain ⟨e, s⟩ := entry
    cases s with
    | failed x => exact ih.cons e
    | skipped =>
      rw [List.append_assoc] at ih ⊢
      exact List.perm_middle.trans (ih.cons e)
    | generated p => exact List.perm_middle.trans (ih.cons e)

theorem parts_ordered (c : Compiled) : c.errors.keys.Sublist c.statuses.keys ∧ c.skipped.Sublist c.statuses.keys ∧
    c.generated.Sublist c.statuses.keys := by
  refine ⟨?_, filterMap_sublist_map ?_ c.statuses, filterMap_sublist_map ?_ c.statuses⟩
  · rw [errors, Table.keys, List.map_filterMap]
    refine filterMap_sublist_map ?_ c.statuses
    rintro ⟨e, s⟩ k hk
    cases s <;> cases hk
    rfl
  all_goals
    rintro ⟨e, s⟩ k hk
    cases s <;> cases hk
    rfl

theorem parted (h : compile graph standard = .ok c) : c.Parted graph := by
  have hstatus : ∀ {e s}, (e, s) ∈ c.statuses ↔ c.status? e = some s :=
    (Table.get?_eq_some (nodup_statuses h)).symm
  refine ⟨keys_statuses h, fun e x => ?_, fun e => ?_, fun e => ?_, c.parts_ordered, c.parts_perm⟩
  · rw [← hstatus, errors, List.mem_filterMap]
    constructor
    · rintro ⟨⟨k, s⟩, hmem, heq⟩
      cases s <;> cases heq
      exact hmem
    · exact fun hmem => ⟨_, hmem, rfl⟩
  · rw [← hstatus, skipped, List.mem_filterMap]
    constructor
    · rintro ⟨⟨k, s⟩, hmem, heq⟩
      cases s <;> cases heq
      exact hmem
    · exact fun hmem => ⟨_, hmem, rfl⟩
  · rw [Compiled.generated, List.mem_filterMap]
    constructor
    · rintro ⟨⟨k, s⟩, hmem, heq⟩
      cases s <;> cases heq
      exact ⟨_, hstatus.mp hmem⟩
    · rintro ⟨p, hp⟩
      exact ⟨_, hstatus.mpr hp, rfl⟩

/-! ## Answers -/

/-- What the queries answer is what came of the entities. -/
structure Answers (c : Compiled) : Prop where
  file : ∀ e, (∃ f, c.fileOf e = .ok f) ↔ c.Generated e
  message : ∀ e, (∃ found, c.messageOf e = .ok found) → c.Generated e
  generated : ∀ e p, c.status? e = some (.generated p) → ∃ f ∈ c.set.files, f.path = pathOf p ∧ c.fileOf e = .ok f ∧
    (f.package = p ↔ ¬ c.Overtaken p) ∧
    ((∃ m ∈ f.messages, m.name = e ∧ f.package = p ∧ c.messageOf e = .ok (qualify p e, m)) ↔
      ¬ c.Overtaken p ∧ Text.startsWithDot p = false)
  failed : ∀ e x, c.status? e = some (.failed x) → c.fileOf e = .error x ∧ c.messageOf e = .error x
  skipped : ∀ e, c.status? e = some .skipped →
    c.fileOf e = .error (.schemaSkipped e) ∧ c.messageOf e = .error (.schemaSkipped e)
  unknown : ∀ e ∉ c.statuses.keys, c.fileOf e = .error (.unresolvedReference e e .notDefined) ∧
    c.messageOf e = .error (.unresolvedReference e e .notDefined)

theorem messageOf_of_error {e : String} {x : EntityError} (h : c.fileOf e = .error x) : c.messageOf e = .error x := by
  unfold messageOf
  rw [h]
  rfl

open Assembly in
/-- The file that is answered for a generated entity is the one of its path. -/
theorem fileOf_of_generated (h : compile graph standard = .ok c) {e p : String} (hgen : c.status? e = some (.generated p))
    {f : ProtoFile} (hf : f ∈ c.set.files) (hpath : f.path = pathOf p) : c.fileOf e = .ok f := by
  obtain ⟨_, hset, _⟩ := compile_ok h
  obtain ⟨_, _, _, _, _, _, hpool⟩ := assemble_eq_ok.mp hset
  have hfound : c.set.file? (pathOf p) = some f := hpath ▸ find?_of_nodup hpool.paths (List.mem_append_right _ hf)
  simp only [fileOf, hgen, hfound]

/-- The message that is answered is looked for by the package of the file. -/
theorem messageOf_eq_ok {e : String} {f : ProtoFile} (hfile : c.fileOf e = .ok f) {found : String × Message} :
    c.messageOf e = .ok found ↔ c.set.message? (f.package ++ "." ++ e) = some found := by
  rw [messageOf, bind_eq_ok]
  constructor
  · rintro ⟨g, hg, hfound⟩
    obtain rfl : f = g := Except.ok.inj (hfile.symm.trans hg)
    dsimp only at hfound
    split at hfound
    · rename_i m hm
      cases hfound
      exact hm
    · cases hfound
  · intro hfound
    refine ⟨f, hfile, ?_⟩
    simp only [hfound]
    rfl

/-- A file that holds what an entity gives has the message of the entity. -/
theorem exists_primary {p : String} {e : Entity} {o : EntityOutput} (hgives : Compilation.Gives graph standard p e o)
    {f : ProtoFile} (hholds : f.Holds o) : ∃ m ∈ f.messages, m.name = e.name := by
  obtain ⟨m, hm, hname⟩ := Compilation.primary_of_gives hgives
  obtain ⟨m', hm', huntyped⟩ := hholds.1 m hm
  exact ⟨m', hm', (Message.name_of_untyped huntyped).trans hname⟩

theorem messageOf_own_iff (h : compile graph standard = .ok c) {e : Entity} {p : String}
    {f : ProtoFile} (hf : f ∈ c.set.files) (hfile : c.fileOf e.name = .ok f) (hpackage : f.package = p ↔ ¬ c.Overtaken p)
    (hholds : f.package = p → ∃ o, Compilation.Gives graph standard p e o ∧ f.Holds o) :
    (∃ m ∈ f.messages, m.name = e.name ∧ f.package = p ∧ c.messageOf e.name = .ok (qualify p e.name, m)) ↔
      ¬ c.Overtaken p ∧ Text.startsWithDot p = false := by
  constructor
  · rintro ⟨m, _, _, rfl, hmessage⟩
    rw [messageOf_eq_ok hfile, DescriptorSet.message?, Option.map_eq_some_iff] at hmessage
    obtain ⟨_, _, hpair⟩ := hmessage
    exact ⟨hpackage.mp rfl, (withoutLeadingDot_eq_iff _ _).mp (Prod.mk.inj hpair).1⟩
  · rintro ⟨hover, hdot⟩
    obtain rfl := hpackage.mpr hover
    obtain ⟨o, hgives, ho⟩ := hholds rfl
    obtain ⟨m, hm, hname⟩ := exists_primary hgives ho
    obtain ⟨_, hset, _⟩ := compile_ok h
    refine ⟨m, hm, hname, rfl, (messageOf_eq_ok hfile).mpr ?_⟩
    rw [← hname]
    exact Assembly.message?_of_mem hset (List.mem_append_right _ hf) hm ((withoutLeadingDot_eq_iff _ _).mpr hdot)

/-- The file and the message that are answered for a generated entity. -/
theorem answer_of_generated (h : compile graph standard = .ok c) {e p : String} (hgen : c.status? e = some (.generated p)) :
    ∃ f ∈ c.set.files, f.path = pathOf p ∧ c.fileOf e = .ok f ∧ (f.package = p ↔ ¬ c.Overtaken p) ∧
      ((∃ m ∈ f.messages, m.name = e ∧ f.package = p ∧ c.messageOf e = .ok (qualify p e, m)) ↔
        ¬ c.Overtaken p ∧ Text.startsWithDot p = false) := by
  obtain ⟨e, he, rfl⟩ := entity_of_status h hgen
  obtain ⟨f, hf, hpath, hpackage, hholds⟩ := Compilation.file_of_generated h he hgen
  have hfile := fileOf_of_generated h hgen hf hpath
  exact ⟨f, hf, hpath, hfile, hpackage, messageOf_own_iff h hf hfile hpackage hholds⟩

theorem generated_of_fileOf {e : String} {f : ProtoFile} (h : c.fileOf e = .ok f) : c.Generated e := by
  unfold fileOf at h
  split at h
  · rename_i p hgen
    exact ⟨p, hgen⟩
  all_goals cases h

theorem answers (h : compile graph standard = .ok c) : c.Answers := by
  refine ⟨fun e => ⟨?_, ?_⟩, ?_, fun e p => answer_of_generated h, ?_, ?_, ?_⟩
  · intro hfile
    obtain ⟨f, hf⟩ := hfile
    exact generated_of_fileOf hf
  · intro hgen
    obtain ⟨p, hp⟩ := hgen
    obtain ⟨f, _, _, hf, _⟩ := answer_of_generated h hp
    exact ⟨f, hf⟩
  · intro e hmessage
    obtain ⟨found, hfound⟩ := hmessage
    cases hfile : c.fileOf e with
    | ok f => exact generated_of_fileOf hfile
    | error x => rw [messageOf_of_error hfile] at hfound; cases hfound
  · intro e x hstatus
    have hfile : c.fileOf e = .error x := by simp only [fileOf, hstatus]
    exact ⟨hfile, messageOf_of_error hfile⟩
  · intro e hstatus
    have hfile : c.fileOf e = .error (.schemaSkipped e) := by simp only [fileOf, hstatus]
    exact ⟨hfile, messageOf_of_error hfile⟩
  · intro e hkey
    have hstatus : c.status? e = none := Table.get?_eq_none.mpr hkey
    have hfile : c.fileOf e = .error (.unresolvedReference e e .notDefined) := by simp only [fileOf, hstatus]
    exact ⟨hfile, messageOf_of_error hfile⟩

end Compiled

namespace Compilation

variable {graph : Graph} {standard : String} {c : Compiled}

/-- What the queries answer is what came of the entities, and every entity of the graph is
    among the failed, the skipped or the generated ones. A generated entity has the file of
    its path. It has its own message if and only if its package is not overtaken and does
    not begin with a dot. -/
theorem queries_agree (h : compile graph standard = .ok c) : c.Answers ∧ c.Parted graph :=
  ⟨Compiled.answers h, Compiled.parted h⟩

theorem queries_agree_slashedGraph : ∃ c, compile slashedGraph standardPackage = .ok c ∧
    c.Answers ∧ c.Parted slashedGraph := by
  obtain ⟨c, hc, _, _⟩ := compile_slashedGraph
  exact ⟨c, hc, queries_agree hc⟩

/-- Not every generated entity has a message. -/
theorem message_lost : ¬ ∀ (graph : Graph) (standard : String) (c : Compiled), compile graph standard = .ok c →
    ∀ e, c.Generated e → ∃ found, c.messageOf e = .ok found := by
  intro hall
  have h : (compileApart slashedGraph standardPackage).toOption.any (fun c => Assembly.namesApart c.set &&
      decide (c.Generated "Team" ∧ (c.messageOf "Team").toOption.isNone)) = true := by decide +kernel
  obtain ⟨c, hc, hboth⟩ := exists_compiled_of_apart h
  obtain ⟨hgen, hnone⟩ := of_decide_eq_true hboth
  obtain ⟨found, hfound⟩ := hall _ _ c hc _ hgen
  rw [hfound] at hnone
  cases hnone

end Compilation

end Protograph
