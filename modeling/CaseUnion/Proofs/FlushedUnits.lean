import CaseUnion.Proofs.GeneratedFiles
import CaseUnion.Proofs.EmittedMembers
import CaseUnion.Proofs.KeptUnions

/-!
# Units flushed into memory

Only a declaration becomes a union, and it stands in declarations, so the unit of every union can be
emitted (`exists_emit_of_mem_unions`). A generation in memory flushes all of them, whether or not
other declarations fail, and then reports these failures: `inMemory_flushes_units`.
-/

namespace CaseUnion

theorem exists_forall₂ {α β : Type} {R : α → β → Prop} {xs : List α} (h : ∀ x ∈ xs, ∃ y, R x y) :
    ∃ ys, List.Forall₂ R xs ys := by
  induction xs with
  | nil => exact ⟨[], .nil⟩
  | cons x rest ih =>
    obtain ⟨hx, hrest⟩ := List.forall_mem_cons.1 h
    obtain ⟨y, hy⟩ := hx
    obtain ⟨ys, hys⟩ := ih hrest
    exact ⟨y :: ys, .cons hy hys⟩

/-! ### Emission -/

namespace Descriptor

def IsDeclared (d : Descriptor) : Prop := ∃ kind, d.origin = .declared kind

theorem IsDeclared.exists_declarationHeader {d : Descriptor} (h : d.IsDeclared) :
    ∃ header, d.declarationHeader = .ok header := by
  obtain ⟨kind, hkind⟩ := h
  refine ⟨d.headerOf kind, ?_⟩
  rw [declarationHeader, kind?, hkind]

theorem isDeclared_ofHeader (header : TypeHeader) (nameSpace : Option String)
    (parents : List Descriptor) : (ofHeader header nameSpace parents).IsDeclared :=
  ⟨header.kind, rfl⟩

theorem isDeclared_of_mem_chain {nameSpace : Option String} {decls : List TypeDecl}
    {parents : List Descriptor} (h : ∀ p ∈ parents, p.IsDeclared) :
    ∀ p ∈ chain nameSpace parents decls, p.IsDeclared := by
  induction decls generalizing parents with
  | nil => exact h
  | cons t rest ih =>
    refine ih (List.forall_mem_append.2 ⟨h, ?_⟩)
    exact List.forall_mem_singleton.2 (isDeclared_ofHeader t.header nameSpace parents)

end Descriptor

namespace UnionType

variable {u : UnionType}

theorem exists_nest {parents : List Descriptor} (h : ∀ p ∈ parents, p.IsDeclared) (inner : Node) :
    ∃ node, nest inner parents = .ok node := by
  obtain ⟨headers, hheaders⟩ := exists_forall₂ fun p hp => (h p hp).exists_declarationHeader
  exact ⟨_, nest_eq_ok_iff.2 ⟨headers, hheaders, rfl⟩⟩

theorem exists_emit (s : Settings) (hself : u.descriptor.IsDeclared)
    (hparents : ∀ p ∈ u.descriptor.parents, p.IsDeclared) : ∃ text, u.emit s = .ok text := by
  obtain ⟨header, hheader⟩ := hself.exists_declarationHeader
  let own := Node.block s!"{header} : System.IEquatable<{u.descriptor.selfReference}>" u.memberNodes
  obtain ⟨nested, hnested⟩ := exists_nest hparents own
  have hnodes : u.unitNodes = .ok (preamble u.descriptor.nameSpace ++ [nested]) := by
    rw [unitNodes, hheader]
    exact congrArg (Except.map fun node => preamble u.descriptor.nameSpace ++ [node]) hnested
  exact ⟨_, congrArg (Except.map (Node.print · s.indentWidth)) hnodes⟩

theorem exists_emit_of_mem_unions {documents : List Document} {s : Settings}
    (h : u ∈ ((Compilation.ofDocuments documents).extractAll s).unions) :
    ∃ text, u.emit s = .ok text := by
  obtain ⟨kept, hunions, -, hdeclared⟩ := Compilation.exists_keys documents s
  rw [hunions] at h
  obtain ⟨x, hx, rfl⟩ := List.mem_map.1 h
  obtain ⟨d, -, e, he⟩ := hdeclared x hx
  apply exists_emit
  · rw [he.descriptor]
    exact Descriptor.isDeclared_ofHeader _ _ _
  · rw [he.descriptor]
    exact Descriptor.isDeclared_of_mem_chain fun _ hp => absurd hp List.not_mem_nil

end UnionType

/-! ### Paths -/

theorem Path.suffix_join (base path : String) : path.toList <:+ (join base path).toList := by
  rw [join]
  split
  · exact List.suffix_rfl
  · split
    · rw [String.toList_append]
      exact List.suffix_append _ _
    · rw [String.toList_append]
      exact List.suffix_append _ _

namespace Generation

variable {g : Generation} {units : List GeneratedUnit}

theorem isGenerated_unitPath (g : Generation) (u : UnionType) :
    g.settings.isGenerated (g.unitPath u) := by
  rw [Settings.isGenerated, List.isSuffixOf_iff_suffix]
  refine List.IsSuffix.trans ?_ (Path.suffix_join _ _)
  rw [UnionType.fileName, String.toList_append]
  exact List.suffix_append _ _

/-- A unit holds the code of a union under the path for it. -/
def Emits (g : Generation) (u : UnionType) (unit : GeneratedUnit) : Prop :=
  unit.path = g.unitPath u ∧ u.emit g.settings = .ok unit.text

theorem exists_emits (g : Generation) : ∃ units, List.Forall₂ g.Emits g.extraction.unions units := by
  refine exists_forall₂ fun u hu => ?_
  obtain ⟨text, htext⟩ := UnionType.exists_emit_of_mem_unions hu
  refine ⟨⟨g.unitPath u, text⟩, ?_⟩
  dsimp only [Emits]
  exact ⟨rfl, htext⟩

theorem exists_union_of_mem (h : List.Forall₂ g.Emits g.extraction.unions units)
    {unit : GeneratedUnit} (hunit : unit ∈ units) : ∃ u ∈ g.extraction.unions, g.Emits u unit := by
  obtain ⟨i, hi, rfl⟩ := List.mem_iff_getElem.1 hunit
  have hlength : i < g.extraction.unions.length := h.length_eq ▸ hi
  exact ⟨_, List.getElem_mem hlength, h.get hlength hi⟩

theorem units_eq_map_ok (h : List.Forall₂ g.Emits g.extraction.unions units) :
    g.units = units.map .ok := by
  rw [Generation.units, ← List.forall₂_eq_eq_eq, List.forall₂_map_left_iff,
    List.forall₂_map_right_iff]
  exact h.imp fun _ _ => unit_eq_ok_iff.2

theorem failuresOf_map_ok {α : Type} (values : List α) : failuresOf (values.map .ok) = [] := by
  induction values with
  | nil => rfl
  | cons value rest ih => exact ih

theorem conclude_map_ok (failures : List Failure) (paths : List String) :
    conclude failures (paths.map .ok) = match failures with
      | [] => .ok paths
      | [failure] => .error failure
      | several => .error (.several several) := by
  rcases failures with _ | ⟨first, _ | ⟨second, rest⟩⟩
  · simp [conclude, failuresOf_map_ok, successes_map_ok]
  · simp [conclude, failuresOf_map_ok]
  · simp [conclude, failuresOf_map_ok]

/-- If all units are emitted, only the failures of declarations count. -/
theorem answer_of_units (hunits : g.units = units.map .ok) :
    (g.inMemory true).1 = match g.extraction.failures with
      | [] => .ok (units.map (·.path))
      | [failure] => .error failure
      | several => .error (.several several) := by
  have hresults : g.units.map (fun u => u.map (·.path)) = (units.map (·.path)).map .ok := by
    rw [hunits, List.map_map, List.map_map]
    rfl
  calc (g.inMemory true).1
    _ = conclude g.extraction.failures (g.units.map fun u => u.map (·.path)) := rfl
    _ = conclude g.extraction.failures ((units.map (·.path)).map .ok) := by rw [hresults]
    _ = _ := conclude_map_ok _ _

/-- What a generation in memory does with its units, which are all emitted. A failure of a
declaration keeps none of them from being flushed. -/
structure Flushes (g : Generation) (units : List GeneratedUnit) : Prop where
  emitted : List.Forall₂ g.Emits g.extraction.unions units
  flushed : ∀ unit ∈ units, ∃ last ∈ units, Path.same unit.path last.path ∧
    (g.inMemory true).2.get? unit.path = some last.text
  exactly : (units.Pairwise fun u v => ¬ Path.same u.path v.path) →
    (g.inMemory true).2.Perm (units.map fun u => (u.path, u.text))
  failures : ByPosition (fun id f => ∃ key, g.compilation.resultAt? g.settings id =
    some (key, .error f)) g.extraction.failures
  succeeds : g.extraction.failures = [] → (g.inMemory true).1 = .ok (units.map (·.path))
  fails : ∀ f, g.extraction.failures = [f] → (g.inMemory true).1 = .error f
  failsTogether : 2 ≤ g.extraction.failures.length →
    (g.inMemory true).1 = .error (.several g.extraction.failures)
  recognised : ∀ unit ∈ units, g.settings.isGenerated unit.path

/-- The units of all unions are emitted and flushed, and then the failures of the other declarations
are reported. -/
theorem inMemory_flushes_units (g : Generation) : ∃ units, g.Flushes units := by
  obtain ⟨units, hemits⟩ := g.exists_emits
  have hunits := units_eq_map_ok hemits
  have hcollected := collected_of_units hunits
  have hanswer := answer_of_units hunits
  refine ⟨units, ?_⟩
  constructor
  case emitted => exact hemits
  case flushed =>
    intro unit hunit
    rw [hcollected]
    exact Collected.exists_get?_collect [] ⟨unit, hunit, Path.same_iff.2 rfl⟩
  case exactly =>
    intro hpaths
    rw [hcollected]
    exact Collected.perm_collect_nil hpaths
  case failures =>
    refine (Extraction.failures_collect [] _).congr fun id f => ?_
    rw [compilation, Compilation.getElem?_extractEach]
  case succeeds =>
    intro hnone
    rw [hanswer, hnone]
  case fails =>
    intro f hone
    rw [hanswer, hone]
  case failsTogether =>
    intro hlength
    rw [hanswer]
    rcases hfailures : g.extraction.failures with _ | ⟨first, _ | ⟨second, rest⟩⟩
    · simp [hfailures] at hlength
    · simp [hfailures] at hlength
    · rfl
  case recognised =>
    intro unit hunit
    obtain ⟨u, -, hpath, -⟩ := exists_union_of_mem hemits hunit
    rw [hpath]
    exact g.isGenerated_unitPath u

/-- The declaration that fails does not keep the other one from being written. -/
def partlyRefused : Generation := ⟨{ outputDir := "out" }, [Compilation.repeatedShape]⟩

example : (partlyRefused.inMemory true).2.map (·.1) = ["out/Shape.g.cs"] := by decide +kernel

example : (partlyRefused.inMemory true).1.isOk = false := by decide +kernel

end Generation
end CaseUnion
