/-
  Protograph.Proofs.Evaluation — compiling a given graph inside a proof.

  Most of the work in compiling a small graph goes into the well-known files, whose names
  are checked again in every set. They all begin with a `g`. Where no name in the files of
  the units does, these files can be checked by themselves (`accepts_append`).

  Proved: `exists_assembled_of_apart` and `exists_compiled_of_apart`. What `assembleApart` or
  `compileApart` gives, with the names apart, is what `assemble` or `compile` gives.
-/

import Protograph.Proofs.Assembly
import Protograph.Proofs.Paths
import Protograph.Proofs.Units

namespace Protograph

/-- A pool accepts files after others, if no path or name is in both. -/
theorem Pool.accepts_append {front back : List ProtoFile} (hfront : Accepts front) (hback : Accepts back)
    (hpaths : ∀ f ∈ front, ∀ g ∈ back, f.path ≠ g.path)
    (hnames : ∀ a ∈ front.flatMap claimsOf, ∀ b ∈ back.flatMap claimsOf, a.name ≠ b.name) : Accepts (front ++ back) := by
  refine ⟨?_, ?_, ?_, ?_⟩
  · rw [List.map_append, List.nodup_append]
    refine ⟨hfront.paths, hback.paths, ?_⟩
    intro p hp q hq
    obtain ⟨f, hf, rfl⟩ := List.mem_map.mp hp
    obtain ⟨g, hg, rfl⟩ := List.mem_map.mp hq
    exact hpaths f hf g hg
  · rw [List.flatMap_append, List.pairwise_append]
    exact ⟨hfront.names, hback.names, fun a ha b hb he => absurd he (hnames a ha b hb)⟩
  · intro f hf
    rcases List.mem_append.mp hf with hf | hf
    · exact hfront.named f hf
    · exact hback.named f hf
  · intro f hf
    rcases List.mem_append.mp hf with hf | hf
    · exact hfront.numbered f hf
    · exact hback.numbered f hf

namespace Assembly

variable {units : List PackageUnit} {set : DescriptorSet}

/-- A name that no well-known file can have. To look at its bytes is to look at the first
    one only, where its characters would all be read. -/
def isApart (name : String) : Bool := name.toByteArray.data.toList.head? ≠ some 'g'.toUInt8

/-- As `assemble`, but the files of the units are checked without the well-known ones, and
    what they declare is not compared. -/
def assembleApart (units : List PackageUnit) : Result DescriptorSet := do
  units.forM (checkImports units)
  let order ← importOrder units
  let relative := filesAt units order
  let symbols := symbolsOf (standing units ++ relative)
  let files ← relative.mapM (canonicalFile symbols)
  checkPool ⟨[], files⟩
  return ⟨standing units, files⟩

/-- No name in the files of the units can be one of a well-known file. -/
def namesApart (set : DescriptorSet) : Bool := set.files.all fun f => (Pool.claimsOf f).all fun c => isApart c.name

theorem assemble_of_apart (h : assembleApart units = .ok set) (hapart : namesApart set = true) :
    assemble units = .ok set := by
  unfold assembleApart at h
  simp only [bind_eq_ok, pure_eq_ok, forM_eq_ok, checkImports_eq_ok, importOrder_eq_ok, mapM_eq_ok, checkPool_eq_ok] at h
  obtain ⟨_, himports, order, horder, files, hfiles, _, hpool, rfl⟩ := h
  have hpool : Pool.Accepts files := hpool
  have hall : Pool.Accepts (standing units ++ files) := by
    by_cases hempty : units.isEmpty = true
    · rw [standing, if_pos hempty]
      exact hpool
    rw [standing, if_neg hempty]
    refine Pool.accepts_append accepts_wellKnown hpool ?_ ?_
    · intro f hf g hg he
      obtain ⟨g₀, hg₀, hcanonical⟩ := exists_of_forall₂_right hfiles hg
      obtain ⟨u, _, rfl⟩ := exists_of_mem_filesAt hg₀
      have hpath : g.path = pathOf u.package := (alike_canonical hcanonical).path
      exact pathOf_not_wellKnown u.package (List.mem_map.mpr ⟨f, hf, he.trans hpath⟩)
    · have hwell : ∀ a ∈ WellKnown.files.flatMap Pool.claimsOf, isApart a.name = false := by decide +kernel
      intro a ha b hb he
      obtain ⟨g, hg, hb⟩ := List.mem_flatMap.mp hb
      have hb : isApart b.name = true := List.all_eq_true.mp (List.all_eq_true.mp hapart g hg) b hb
      rw [← he, hwell a ha] at hb
      cases hb
  refine assemble_eq_ok.mpr ⟨himports, order, horder, ?_, rfl, hfiles, hall⟩
  rw [← symbolsOf_alike (hfiles.imp fun _ _ => alike_canonical)]
  exact names_nodup_of_pairwise hall.names

/-- What is tested of a set put together apart, if there is one, holds of the set. -/
theorem exists_assembled_of_apart {p : DescriptorSet → Bool}
    (h : (assembleApart units).toOption.any (fun set => namesApart set && p set) = true) :
    ∃ set, assemble units = .ok set ∧ p set = true := by
  obtain ⟨set, hset, htests⟩ := exists_ok_of_any h
  obtain ⟨hapart, hp⟩ := Bool.and_eq_true_iff.mp htests
  exact ⟨set, assemble_of_apart hset hapart, hp⟩

end Assembly

namespace Compilation

open Assembly (assembleApart namesApart)

variable {graph : Graph} {standard : String}

/-- As `compile`, with `assembleApart` in the place of `assemble`. -/
def compileApart (graph : Graph) (standard : String) : Except CompileError Compiled := do
  let outputs := settled graph standard
  let units := group outputs
  let set ← assembleApart units
  return { units, set, statuses := graph.entities.map fun e => (e.name, statusOf outputs e) }

/-- What is tested of a graph compiled apart, if there is anything, holds of the compiled graph. -/
theorem exists_compiled_of_apart {p : Compiled → Bool}
    (h : (compileApart graph standard).toOption.any (fun c => namesApart c.set && p c) = true) :
    ∃ c, compile graph standard = .ok c ∧ p c = true := by
  obtain ⟨c, hc, htests⟩ := exists_ok_of_any h
  obtain ⟨hapart, hp⟩ := Bool.and_eq_true_iff.mp htests
  refine ⟨c, ?_, hp⟩
  unfold compileApart at hc
  obtain ⟨set, hset, hc⟩ := bind_eq_ok.mp hc
  cases hc
  exact bind_eq_ok.mpr ⟨set, Assembly.assemble_of_apart hset hapart, rfl⟩

end Compilation

end Protograph
