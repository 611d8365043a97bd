/-
  Protograph.Proofs.Pool — which sets of files are pools of descriptors.

  `check_eq_ok_iff` reads the check as the rule it decides (`Accepts`): no path comes twice;
  no two names claimed by the files are the same, unless both are packages; in every message
  fields differ by more than case and underscores, and numbers are distinct and allowed;
  every enumeration begins with number 0.

  Every step of naming a file only checks something of the file or claims a name, so that
  naming files is claiming all their names one after another (`nameMessage_eq_ok`,
  `nameFiles_eq_ok`), and names can be claimed if and only if they are apart
  (`exists_claimed_iff`).
-/

import Protograph.Descriptor.Pool
import Protograph.Proofs.Steps
import Protograph.Proofs.Tables

namespace Protograph

/-! ## Names that files declare -/

def Enum.declared (scope : String) (e : Enum) : List String :=
  qualify scope e.name :: e.values.map fun v => qualify scope v.name

def Service.declared (scope : String) (s : Service) : List String :=
  qualify scope s.name :: s.methods.map fun m => qualify (qualify scope s.name) m.name

theorem Enum.name_mem_declared (e : Enum) (scope : String) : qualify scope e.name ∈ e.declared scope := List.mem_cons_self

theorem Service.name_mem_declared (s : Service) (scope : String) : qualify scope s.name ∈ s.declared scope :=
  List.mem_cons_self

mutual

/-- The message, its fields, what is nested in it and its enumerations with their values,
    by their full names. -/
def Message.declared (scope : String) : Message → List String
  | ⟨name, fields, enums, nested⟩ =>
    qualify scope name :: (fields.map (fun f => qualify (qualify scope name) f.name) ++
      (Message.declaredAll (qualify scope name) nested ++ enums.flatMap (Enum.declared (qualify scope name))))

def Message.declaredAll (scope : String) : List Message → List String
  | [] => []
  | m :: ms => m.declared scope ++ Message.declaredAll scope ms

end

theorem Message.name_mem_declared (m : Message) (scope : String) : qualify scope m.name ∈ m.declared scope := by
  obtain ⟨name, fields, enums, nested⟩ := m
  rw [Message.declared]
  exact List.mem_cons_self

theorem Message.declaredAll_eq (ms : List Message) (scope : String) :
    Message.declaredAll scope ms = ms.flatMap (Message.declared scope) := by
  induction ms with
  | nil => rfl
  | cons m ms ih => rw [Message.declaredAll, List.flatMap_cons, ih]

def ProtoFile.declared (f : ProtoFile) : List String :=
  Message.declaredAll f.package f.messages ++
    (f.oneofs.map (qualify f.package) ++
      (f.enums.flatMap (Enum.declared f.package) ++ f.services.flatMap (Service.declared f.package)))

mutual

/-- The message and all that is nested in it. -/
def Message.tree : Message → List Message
  | ⟨name, fields, enums, nested⟩ => ⟨name, fields, enums, nested⟩ :: Message.treeAll nested

def Message.treeAll : List Message → List Message
  | [] => []
  | m :: ms => m.tree ++ Message.treeAll ms

end

theorem Message.treeAll_eq (ms : List Message) : Message.treeAll ms = ms.flatMap Message.tree := by
  induction ms with
  | nil => rfl
  | cons m ms ih => rw [Message.treeAll, List.flatMap_cons, ih]

theorem Message.mem_treeAll {ms : List Message} {m x : Message} (hm : m ∈ ms) (hx : x ∈ m.tree) : x ∈ Message.treeAll ms := by
  rw [Message.treeAll_eq]
  exact List.mem_flatMap.mpr ⟨m, hm, hx⟩

def ProtoFile.tree (f : ProtoFile) : List Message := Message.treeAll f.messages

/-! ## The rules -/

/-- The first value has number 0. -/
def Enum.Begins (e : Enum) : Prop := ∃ v vs, e.values = v :: vs ∧ v.number = 0

def Enum.Numbered (e : Enum) : Prop := (e.values.map (·.number)).Nodup

/-- What the names in a message must satisfy by themselves. -/
structure Message.WellNamed (m : Message) : Prop where
  camel : (m.fields.map fun f => Pool.foldedName f.name).Nodup
  begins : ∀ e ∈ m.enums, e.Begins

/-- What the numbers and types in a message must satisfy. -/
structure Message.WellNumbered (m : Message) : Prop where
  allowed : ∀ f ∈ m.fields, Pool.isFieldNumber f.number = true
  typed : ∀ f ∈ m.fields, f.type.isNamed = true ∨ f.type = .group → f.typeName.isSome = true
  distinct : (m.fields.map (·.number)).Nodup
  values : ∀ e ∈ m.enums, e.Numbered

namespace Pool

/-- Two claims are the same name only if both are packages. -/
def Shares (a b : Claim) : Prop := a.name = b.name → a.isPackage = true ∧ b.isPackage = true

/-- Everything that a file claims: the packages around it, and what it declares. -/
def claimsOf (f : ProtoFile) : List Claim :=
  (packagePrefixes f.package).map (⟨·, f.path, true⟩) ++ f.declared.map (⟨·, f.path, false⟩)

/-- Claims that are for no package share no name. -/
theorem nodup_of_pairwise_shares {claims : List Claim} (h : claims.Pairwise Shares)
    (hnone : ∀ c ∈ claims, c.isPackage = false) : (claims.map (·.name)).Nodup := by
  refine List.pairwise_map.mpr (h.imp_of_mem ?_)
  intro a b ha _ hshares he
  exact absurd (hshares he).1 (by simp [hnone a ha])

/-- What the check of a set of files checks. -/
structure Accepts (files : List ProtoFile) : Prop where
  paths : (files.map (·.path)).Nodup
  names : (files.flatMap claimsOf).Pairwise Shares
  named : ∀ f ∈ files, (∀ m ∈ f.tree, m.WellNamed) ∧ ∀ e ∈ f.enums, e.Begins
  numbered : ∀ f ∈ files, (∀ m ∈ f.tree, m.WellNumbered) ∧ ∀ e ∈ f.enums, e.Numbered

/-! ## Claiming names -/

def take (claims : List Claim) (c : Claim) : Check (List Claim) := claim c.file claims c.name c.isPackage

theorem take_eq_ok {claims claims' : List Claim} {c : Claim} (hn : (claims.map (·.name)).Nodup) :
    take claims c = .ok claims' ↔
      (∀ a ∈ claims, Shares a c) ∧ claims' = if c.name ∈ claims.map (·.name) then claims else c :: claims := by
  unfold take claim
  cases hf : claims.find? (·.name == c.name) with
  | none =>
    have hfree : ∀ a ∈ claims, a.name ≠ c.name := by
      intro a ha
      simpa using List.find?_eq_none.mp hf a ha
    have hnot : c.name ∉ claims.map (·.name) := by simpa using hfree
    rw [if_neg hnot]
    constructor
    · intro h
      cases h
      exact ⟨fun a ha he => absurd he (hfree a ha), rfl⟩
    · intro hparts
      obtain ⟨_, rfl⟩ := hparts
      rfl
  | some a =>
    have ha : a ∈ claims := List.mem_of_find?_eq_some hf
    have hname : a.name = c.name := by simpa using List.find?_some hf
    rw [if_pos (List.mem_map.mpr ⟨a, ha, hname⟩)]
    dsimp only
    split
    · rename_i hboth
      rw [Bool.and_eq_true] at hboth
      constructor
      · intro h
        cases h
        refine ⟨fun b hb he => ?_, rfl⟩
        rw [List.inj_on_of_nodup_map hn hb ha (he.trans hname.symm)]
        exact ⟨hboth.2, hboth.1⟩
      · intro hparts
        obtain ⟨_, rfl⟩ := hparts
        rfl
    · rename_i hnot
      simp only [reduceCtorEq, false_iff, not_and]
      intro hall
      obtain ⟨h1, h2⟩ := hall a ha hname
      exact absurd (by rw [h1, h2]; rfl) hnot

/-- Claims can be made after others if and only if they share no name with them or with
    one another. -/
theorem exists_claimed_iff {new claims : List Claim} (hn : (claims.map (·.name)).Nodup) :
    (∃ r, new.foldlM take claims = .ok r) ↔ (∀ a ∈ claims, ∀ b ∈ new, Shares a b) ∧ new.Pairwise Shares := by
  induction new generalizing claims with
  | nil => simp [pure, Except.pure]
  | cons c new ih =>
    simp only [foldlM_cons_eq_ok, take_eq_ok hn, List.pairwise_cons, List.forall_mem_cons]
    by_cases hc : c.name ∈ claims.map (·.name)
    · simp only [hc, if_true]
      obtain ⟨a, ha, hname⟩ := List.mem_map.mp hc
      constructor
      · intro h
        obtain ⟨r, _, ⟨hshares, rfl⟩, hr⟩ := h
        obtain ⟨hold, hnew⟩ := (ih hn).mp ⟨r, hr⟩
        refine ⟨fun b hb => ⟨hshares b hb, hold b hb⟩, fun b hb he => ?_, hnew⟩
        exact ⟨(hshares a ha hname).2, (hold a ha b hb (hname.trans he)).2⟩
      · intro h
        obtain ⟨hold, _, hnew⟩ := h
        obtain ⟨r, hr⟩ := (ih hn).mpr ⟨fun b hb => (hold b hb).2, hnew⟩
        exact ⟨r, _, ⟨fun b hb => (hold b hb).1, rfl⟩, hr⟩
    · simp only [hc, if_false]
      have hn' : ((c :: claims).map (·.name)).Nodup := List.nodup_cons.mpr ⟨hc, hn⟩
      constructor
      · intro h
        obtain ⟨r, _, ⟨hshares, rfl⟩, hr⟩ := h
        obtain ⟨hold, hnew⟩ := (ih hn').mp ⟨r, hr⟩
        rw [List.forall_mem_cons] at hold
        exact ⟨fun b hb => ⟨hshares b hb, hold.2 b hb⟩, hold.1, hnew⟩
      · intro h
        obtain ⟨hold, hfirst, hnew⟩ := h
        obtain ⟨r, hr⟩ := (ih hn').mpr ⟨List.forall_mem_cons.mpr ⟨hfirst, fun b hb => (hold b hb).2⟩, hnew⟩
        exact ⟨r, _, ⟨fun b hb => (hold b hb).1, rfl⟩, hr⟩

theorem exists_all_claimed_iff {new : List Claim} : (∃ r, new.foldlM take [] = .ok r) ↔ new.Pairwise Shares := by
  have hnone : (([] : List Claim).map (·.name)).Nodup := List.nodup_nil
  rw [exists_claimed_iff hnone]
  simp

/-! ## Naming files -/

variable {file scope : String} {claims claims' : List Claim}

theorem claimAll_append {names more : List String} :
    claimAll file claims (names ++ more) = .ok claims' ↔
      ∃ t, claimAll file claims names = .ok t ∧ claimAll file t more = .ok claims' := foldlM_append_eq_ok

theorem claimAll_cons {name : String} {names : List String} :
    claimAll file claims (name :: names) = .ok claims' ↔
      ∃ t, claim file claims name = .ok t ∧ claimAll file t names = .ok claims' := foldlM_cons_eq_ok

theorem checkCamelCase_eq_ok {seen : List String} {fields : List Field} {u : Unit} :
    checkCamelCase seen fields = .ok u ↔
      Fresh (seen.map foldedName) (fields.map fun f => foldedName f.name) := by
  induction fields generalizing seen with
  | nil => simp [checkCamelCase, fresh_nil]
  | cons f fields ih =>
    rw [List.map_cons, fresh_cons]
    unfold checkCamelCase
    split
    · rename_i s hs
      have hmem : foldedName f.name ∈ seen.map foldedName :=
        List.mem_map.mpr ⟨s, List.mem_of_find?_eq_some hs, by simpa using List.find?_some hs⟩
      simp [hmem]
    · rename_i hs
      have hnew : foldedName f.name ∉ seen.map foldedName := by simpa using List.find?_eq_none.mp hs
      have hsame : ∀ x, x ∈ (seen ++ [f.name]).map foldedName ↔ x ∈ foldedName f.name :: seen.map foldedName := by
        intro x
        simp [or_comm]
      rw [ih, fresh_congr hsame]
      exact ⟨fun h => ⟨hnew, h⟩, fun h => h.2⟩

theorem nameEnum_eq_ok {e : Enum} :
    nameEnum file scope claims e = .ok claims' ↔ e.Begins ∧ claimAll file claims (e.declared scope) = .ok claims' := by
  unfold nameEnum Enum.Begins Enum.declared
  simp only [bind_eq_ok, claimAll_cons]
  cases e.values with
  | nil => simp
  | cons v vs =>
    dsimp only
    by_cases hv : v.number = 0
    · simp [hv]
    · simp [hv]

theorem nameEnums_eq_ok {es : List Enum} :
    es.foldlM (nameEnum file scope) claims = .ok claims' ↔
      (∀ e ∈ es, e.Begins) ∧ claimAll file claims (es.flatMap (Enum.declared scope)) = .ok claims' :=
  foldlM_eq_ok_flatMap Enum.Begins (Enum.declared scope) fun _ _ _ => nameEnum_eq_ok

theorem nameService_eq_ok {s : Service} :
    nameService file scope claims s = .ok claims' ↔ claimAll file claims (s.declared scope) = .ok claims' := by
  unfold nameService Service.declared
  rw [bind_eq_ok, claimAll_cons]

theorem nameServices_eq_ok {ss : List Service} :
    ss.foldlM (nameService file scope) claims = .ok claims' ↔
      claimAll file claims (ss.flatMap (Service.declared scope)) = .ok claims' := by
  have hsteps : ∀ cs s cs', nameService file scope cs s = .ok cs' ↔
      True ∧ (s.declared scope).foldlM (fun cs n => claim file cs n) cs = .ok cs' := by
    intro cs s cs'
    rw [nameService_eq_ok, true_and]
    rfl
  rw [foldlM_eq_ok_flatMap _ _ hsteps]
  exact and_iff_right fun _ _ => trivial

mutual

theorem nameMessage_eq_ok (m : Message) {scope : String} {claims claims' : List Claim} :
    nameMessage file scope claims m = .ok claims' ↔
      (∀ x ∈ m.tree, x.WellNamed) ∧ claimAll file claims (m.declared scope) = .ok claims' := by
  obtain ⟨name, fields, enums, nested⟩ := m
  unfold nameMessage Message.tree Message.declared
  simp only [bind_eq_ok, claimAll_cons, claimAll_append, nameMessages_eq_ok nested, nameEnums_eq_ok,
    checkCamelCase_eq_ok, List.forall_mem_cons]
  constructor
  · intro h
    obtain ⟨c1, h1, _, hcamel, c2, h2, c3, ⟨hnested, h3⟩, hbegins, h4⟩ := h
    exact ⟨⟨⟨fresh_of_none_seen.mp hcamel, hbegins⟩, hnested⟩, c1, h1, c2, h2, c3, h3, h4⟩
  · intro h
    obtain ⟨⟨⟨hcamel, hbegins⟩, hnested⟩, c1, h1, c2, h2, c3, h3, h4⟩ := h
    exact ⟨c1, h1, ⟨⟩, fresh_of_none_seen.mpr hcamel, c2, h2, c3, ⟨hnested, h3⟩, hbegins, h4⟩

theorem nameMessages_eq_ok (ms : List Message) {scope : String} {claims claims' : List Claim} :
    nameMessages file scope claims ms = .ok claims' ↔
      (∀ x ∈ Message.treeAll ms, x.WellNamed) ∧ claimAll file claims (Message.declaredAll scope ms) = .ok claims' := by
  cases ms with
  | nil => simp [nameMessages, Message.treeAll, Message.declaredAll, claimAll, pure, Except.pure]
  | cons m ms =>
    unfold nameMessages Message.treeAll Message.declaredAll
    simp only [bind_eq_ok, claimAll_append, nameMessage_eq_ok m, nameMessages_eq_ok ms, List.forall_mem_append]
    constructor
    · intro h
      obtain ⟨c1, ⟨hm, h1⟩, hms, h2⟩ := h
      exact ⟨⟨hm, hms⟩, c1, h1, h2⟩
    · intro h
      obtain ⟨⟨hm, hms⟩, c1, h1, h2⟩ := h
      exact ⟨c1, ⟨hm, h1⟩, hms, h2⟩

end

theorem foldlM_take_names {names : List String} :
    (names.map (⟨·, file, false⟩)).foldlM take claims = .ok claims' ↔ claimAll file claims names = .ok claims' := by
  rw [List.foldlM_map]
  rfl

theorem nameFile_eq_ok {f : ProtoFile} :
    nameFile claims f = .ok claims' ↔
      ((∀ m ∈ f.tree, m.WellNamed) ∧ ∀ e ∈ f.enums, e.Begins) ∧ (claimsOf f).foldlM take claims = .ok claims' := by
  unfold nameFile claimsOf ProtoFile.declared ProtoFile.tree
  simp only [bind_eq_ok, foldlM_append_eq_ok, foldlM_take_names, claimAll_append, nameMessages_eq_ok, nameEnums_eq_ok,
    nameServices_eq_ok]
  have hpackages : ∀ {t}, (packagePrefixes f.package).foldlM (fun cs p => claim f.path cs p true) claims = .ok t ↔
      ((packagePrefixes f.package).map (⟨·, f.path, true⟩)).foldlM take claims = .ok t := by
    intro t
    rw [List.foldlM_map]
    rfl
  simp only [hpackages]
  constructor
  · intro h
    obtain ⟨c1, h1, c2, ⟨hm, h2⟩, c3, h3, c4, ⟨he, h4⟩, h5⟩ := h
    exact ⟨⟨hm, he⟩, c1, h1, c2, h2, c3, h3, c4, h4, h5⟩
  · intro h
    obtain ⟨⟨hm, he⟩, c1, h1, c2, h2, c3, h3, c4, h4, h5⟩ := h
    exact ⟨c1, h1, c2, ⟨hm, h2⟩, c3, h3, c4, ⟨he, h4⟩, h5⟩

theorem nameFiles_eq_ok {files : List ProtoFile} {paths : List String} {u : Unit} :
    nameFiles paths claims files = .ok u ↔
      Fresh paths (files.map (·.path)) ∧ (∀ f ∈ files, (∀ m ∈ f.tree, m.WellNamed) ∧ ∀ e ∈ f.enums, e.Begins) ∧
        ∃ r, (files.flatMap claimsOf).foldlM take claims = .ok r := by
  induction files generalizing paths claims with
  | nil => simp [nameFiles, fresh_nil, pure, Except.pure]
  | cons f files ih =>
    unfold nameFiles
    rw [List.map_cons, fresh_cons, List.forall_mem_cons, List.flatMap_cons]
    simp only [foldlM_append_eq_ok]
    split
    · rename_i hseen
      simp [hseen]
    · rename_i hnew
      simp only [bind_eq_ok, nameFile_eq_ok, ih]
      constructor
      · intro h
        obtain ⟨c1, ⟨hf, h1⟩, hpaths, hfiles, r, hr⟩ := h
        exact ⟨⟨hnew, hpaths⟩, ⟨hf, hfiles⟩, r, c1, h1, hr⟩
      · intro h
        obtain ⟨⟨_, hpaths⟩, ⟨hf, hfiles⟩, r, c1, h1, hr⟩ := h
        exact ⟨c1, ⟨hf, h1⟩, hpaths, hfiles, r, hr⟩

/-! ## Numbers -/

theorem checkFields_eq_ok {path : List Nat} {position : Nat} {seen : List Int} {fields : List Field} {u : Unit} :
    checkFields path position seen fields = .ok u ↔
      ((∀ f ∈ fields, isFieldNumber f.number = true) ∧
        ∀ f ∈ fields, f.type.isNamed = true ∨ f.type = .group → f.typeName.isSome = true) ∧
      Fresh seen (fields.map (·.number)) := by
  induction fields generalizing position seen with
  | nil => simp [checkFields, fresh_nil]
  | cons f fields ih =>
    unfold checkFields
    rw [List.map_cons, fresh_cons, List.forall_mem_cons, List.forall_mem_cons]
    split
    · rename_i hbad
      have hbad : ¬ isFieldNumber f.number = true := by simpa using hbad
      simp [hbad]
    rename_i hnumber
    have hnumber : isFieldNumber f.number = true := by simpa using hnumber
    split
    · rename_i hbare
      simp only [Bool.and_eq_true, Bool.or_eq_true, decide_eq_true_eq, Option.isNone_iff_eq_none] at hbare
      simp [hbare.1, hbare.2]
    rename_i htyped
    have htyped : f.type.isNamed = true ∨ f.type = .group → f.typeName.isSome = true := by
      intro h
      simpa [h, Option.isSome_iff_ne_none] using htyped
    split
    · rename_i hseen
      simp [hseen]
    rename_i hnew
    rw [ih]
    constructor
    · intro hparts
      obtain ⟨⟨hnumbers, htypes⟩, hfresh⟩ := hparts
      exact ⟨⟨⟨hnumber, hnumbers⟩, htyped, htypes⟩, hnew, hfresh⟩
    · intro hparts
      obtain ⟨⟨⟨_, hnumbers⟩, _, htypes⟩, _, hfresh⟩ := hparts
      exact ⟨⟨hnumbers, htypes⟩, hfresh⟩

theorem checkValues_eq_ok {seen : List Int} {vs : List EnumValue} {u : Unit} :
    checkValues seen vs = .ok u ↔ Fresh seen (vs.map (·.number)) := by
  induction vs generalizing seen with
  | nil => simp [checkValues, fresh_nil]
  | cons v vs ih =>
    unfold checkValues
    rw [List.map_cons, fresh_cons]
    split
    · rename_i hseen
      simp [hseen]
    · rename_i hnew
      rw [ih]
      exact ⟨fun h => ⟨hnew, h⟩, fun h => h.2⟩

theorem checkEnums_eq_ok {es : List Enum} {u : Unit} :
    (es.forM fun e => checkValues [] e.values) = .ok u ↔ ∀ e ∈ es, e.Numbered := by
  rw [forM_eq_ok]
  simp only [checkValues_eq_ok, fresh_of_none_seen, Enum.Numbered]

mutual

theorem checkMessage_eq_ok (m : Message) {path : List Nat} {u : Unit} :
    checkMessage path m = .ok u ↔ ∀ x ∈ m.tree, x.WellNumbered := by
  obtain ⟨name, fields, enums, nested⟩ := m
  unfold checkMessage Message.tree
  simp only [bind_eq_ok, checkFields_eq_ok, checkMessages_eq_ok nested, checkEnums_eq_ok, fresh_of_none_seen,
    List.forall_mem_cons]
  constructor
  · intro h
    obtain ⟨_, ⟨⟨hallowed, htyped⟩, hdistinct⟩, _, hnested, hvalues⟩ := h
    exact ⟨⟨hallowed, htyped, hdistinct, hvalues⟩, hnested⟩
  · intro h
    obtain ⟨⟨hallowed, htyped, hdistinct, hvalues⟩, hnested⟩ := h
    exact ⟨⟨⟩, ⟨⟨hallowed, htyped⟩, hdistinct⟩, ⟨⟩, hnested, hvalues⟩

theorem checkMessages_eq_ok (ms : List Message) {path : List Nat} {position : Nat} {u : Unit} :
    checkMessages path position ms = .ok u ↔ ∀ x ∈ Message.treeAll ms, x.WellNumbered := by
  cases ms with
  | nil => simp [checkMessages, Message.treeAll]
  | cons m ms =>
    unfold checkMessages Message.treeAll
    simp only [bind_eq_ok, checkMessage_eq_ok m, checkMessages_eq_ok ms, List.forall_mem_append]
    exact ⟨fun ⟨_, hm, hms⟩ => ⟨hm, hms⟩, fun ⟨hm, hms⟩ => ⟨⟨⟩, hm, hms⟩⟩

end

theorem checkFile_eq_ok {f : ProtoFile} {u : Unit} :
    checkFile f = .ok u ↔ (∀ m ∈ f.tree, m.WellNumbered) ∧ ∀ e ∈ f.enums, e.Numbered := by
  unfold checkFile ProtoFile.tree
  simp only [bind_eq_ok, checkMessages_eq_ok, checkEnums_eq_ok]
  exact ⟨fun ⟨_, hm, he⟩ => ⟨hm, he⟩, fun ⟨hm, he⟩ => ⟨⟨⟩, hm, he⟩⟩

/-- The check lets through exactly the files that keep the rules. -/
theorem check_eq_ok_iff {files : List ProtoFile} : (∃ u, check files = .ok u) ↔ Accepts files := by
  unfold check
  simp only [bind_eq_ok, nameFiles_eq_ok, forM_eq_ok, checkFile_eq_ok, fresh_of_none_seen,
    exists_all_claimed_iff]
  constructor
  · intro h
    obtain ⟨_, _, ⟨hpaths, hnamed, hnames⟩, hnumbered⟩ := h
    exact ⟨hpaths, hnames, hnamed, hnumbered⟩
  · intro h
    obtain ⟨hpaths, hnames, hnamed, hnumbered⟩ := h
    exact ⟨⟨⟩, ⟨⟩, ⟨hpaths, hnamed, hnames⟩, hnumbered⟩

end Pool

end Protograph
