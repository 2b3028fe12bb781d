import CaseUnion.Proofs.ExtractedUnions
import CaseUnion.Proofs.FlushedUnits
import CaseUnion.Proofs.PrintedLines
import CaseUnion.Proofs.QualifiedNames

/-!
# Reopened types

The unit of a union opens the declarations around it from the outermost one to its own, puts the
members inside, and closes them in reverse. The nodes are built the other way, from the inside, and
the headers are those of descriptors, which know nothing of depth. So the lines are compared with a
list of lines that is made from the declarations alone (`UnionType.reopenedLines`), at any depth and
also where lines are not indented further: `unit_reopens_declarations`.
-/

namespace CaseUnion

namespace TypeHeader

/-- The words that open a declaration again. It is always partial then. -/
def reopened (d : TypeHeader) : String :=
  " ".intercalate (d.accessibility.keyword ::
    ((if d.modifiers.isStatic then ["static"] else []) ++
      (if d.modifiers.isReadonly then ["readonly"] else []) ++
      ["partial", d.kind.keyword, Descriptor.generic d.name d.typeParameters]))

/-- The words that open a union again, which can be compared with itself. -/
def reopenedUnion (d : TypeHeader) : String :=
  s!"{d.reopened} : System.IEquatable<{Descriptor.generic d.name d.typeParameters}>"

end TypeHeader

/-! ### Headers -/

/-- A word that may be left out, in front of other words. -/
theorem intercalate_optional {words : List String} (h : words ≠ []) (given : Bool)
    (word : String) : " ".intercalate ((if given then [word] else []) ++ words) =
      (if given then word ++ " " else "") ++ " ".intercalate words := by
  cases given with
  | false => exact String.empty_append.symm
  | true =>
    rw [if_pos rfl, if_pos rfl, List.singleton_append, String.intercalate_cons_of_ne_nil h]

namespace Descriptor

variable {nameSpace : Option String}

theorem headerOf_ofHeader (d : TypeHeader) (parents : List Descriptor) :
    (ofHeader d nameSpace parents).headerOf d.kind = d.reopened := by
  have hstatic : "static " = "static" ++ " " := rfl
  have hreadonly : "readonly " = "readonly" ++ " " := rfl
  have hpartial : "partial " = "partial" ++ " " := rfl
  rw [headerOf, hstatic, hreadonly, hpartial, TypeHeader.reopened, List.append_assoc,
    String.intercalate_cons_of_ne_nil (by simp), intercalate_optional (by simp),
    intercalate_optional (by simp), String.intercalate_cons_cons, String.intercalate_cons_cons,
    String.intercalate_singleton]
  simp only [String.append_assoc, ofHeader, selfReference]

theorem declarationHeader_ofHeader (d : TypeHeader) (parents : List Descriptor) :
    (ofHeader d nameSpace parents).declarationHeader = .ok d.reopened :=
  congrArg Except.ok (headerOf_ofHeader d parents)

theorem reopened_ne_empty (d : TypeHeader) : d.reopened ≠ "" := by
  have h : (ofHeader d none []).headerOf d.kind = d.reopened := headerOf_ofHeader d []
  rw [← h]
  simp [headerOf]

theorem reopenedUnion_ne_empty (d : TypeHeader) : d.reopenedUnion ≠ "" := by
  simp [TypeHeader.reopenedUnion, toString]

/-- The headers of parents are those of the declarations that they describe. -/
theorem declarationHeaders_chain (outer : List TypeDecl) :
    List.Forall₂ (fun p header => p.declarationHeader = .ok header) (chain nameSpace [] outer)
      (outer.map (·.header.reopened)) := by
  induction outer using List.reverseRecOn with
  | nil => exact .nil
  | append_singleton outer last ih =>
    rw [chain_concat, List.map_append]
    exact List.rel_append ih (.cons (declarationHeader_ofHeader _ _) .nil)

end Descriptor

/-! ### Units -/

namespace UnionType

open Compilation

variable {u : UnionType} {outer : List TypeDecl} {decl : TypeDecl} {nameSpace : Option String}

/-- The lines above all declarations. -/
def preambleLines (nameSpace : Option String) : List CodeLine :=
  [.code 0 "// <auto-generated/>", .code 0 "#nullable enable", .blank] ++
    match nameSpace with
    | some name => [.code 0 s!"namespace {name};", .blank]
    | none => []

/-- The lines of the unit of a union that is declared inside others. -/
def reopenedLines (u : UnionType) (outer : List TypeDecl) (decl : TypeDecl)
    (nameSpace : Option String) : List CodeLine :=
  preambleLines nameSpace ++
    (CodeLine.openings 0 (outer.map (·.header.reopened) ++ [decl.header.reopenedUnion]) ++
      Node.allLines (outer.length + 1) u.memberNodes ++ CodeLine.closings 0 (outer.length + 1))

theorem allLines_preamble (nameSpace : Option String) :
    Node.allLines 0 (preamble nameSpace) = preambleLines nameSpace := by
  cases nameSpace <;> rfl

theorem unitNodes_of_descriptor (h : u.descriptor = .ofDecl outer decl nameSpace) :
    u.unitNodes = .ok (preamble nameSpace ++
      (outer.map (·.header.reopened) ++ [decl.header.reopenedUnion]).foldr
        (fun header inner => [.block header inner]) u.memberNodes) := by
  have hheader : u.descriptor.declarationHeader = .ok decl.header.reopened := by
    rw [h]
    exact Descriptor.declarationHeader_ofHeader _ _
  have hself : u.descriptor.selfReference =
      Descriptor.generic decl.header.name decl.header.typeParameters := by
    rw [h]
    rfl
  have hheaders : List.Forall₂ (fun p header => p.declarationHeader = .ok header)
      u.descriptor.parents (outer.map (·.header.reopened)) := by
    rw [h]
    exact Descriptor.declarationHeaders_chain outer
  have hnest : nest (.block decl.header.reopenedUnion u.memberNodes) u.descriptor.parents =
      .ok ((outer.map (·.header.reopened)).foldr (fun header body => .block header [body])
        (.block decl.header.reopenedUnion u.memberNodes)) :=
    nest_eq_ok_iff.2 ⟨_, hheaders, rfl⟩
  -- blocks around one node are the same as blocks around the list with this node only
  have hsingle : [(outer.map (·.header.reopened)).foldr
        (fun header body => Node.block header [body])
        (.block decl.header.reopenedUnion u.memberNodes)] =
      (outer.map (·.header.reopened)).foldr (fun header inner => [.block header inner])
        [.block decl.header.reopenedUnion u.memberNodes] :=
    (List.foldr_hom (fun node => [node]) fun _ _ => rfl).symm
  rw [unitNodes, hheader, hself, List.foldr_append, List.foldr_cons, List.foldr_nil, ← hsingle, h]
  exact congrArg (Except.map fun node => preamble nameSpace ++ [node]) (h ▸ hnest)

theorem emit_of_descriptor (h : u.descriptor = .ofDecl outer decl nameSpace) (s : Settings) :
    u.emit s = .ok (CodeLine.printAll s.indentWidth (u.reopenedLines outer decl nameSpace)) := by
  have hheaders : ∀ header ∈ outer.map (·.header.reopened) ++ [decl.header.reopenedUnion],
      header ≠ "" := by
    refine List.forall_mem_append.2 ⟨?_, List.forall_mem_singleton.2 ?_⟩
    · exact List.forall_mem_map.2 fun t _ => Descriptor.reopened_ne_empty t.header
    · exact Descriptor.reopenedUnion_ne_empty decl.header
  rw [emit, unitNodes_of_descriptor h]
  refine congrArg Except.ok ?_
  rw [Node.print_eq, Node.allLines_append, allLines_preamble, Node.allLines_foldr_block hheaders,
    reopenedLines]
  simp

/-- A union that is declared inside others can be emitted, and its unit opens all of these again and
closes them in reverse. The declarations around an extracted union are those on the way up from its
own. -/
theorem unit_reopens_declarations (u : UnionType) (s : Settings) :
    (∀ outer decl nameSpace, u.descriptor = .ofDecl outer decl nameSpace →
      u.emit s = .ok (CodeLine.printAll s.indentWidth (u.reopenedLines outer decl nameSpace))) ∧
      ∀ documents id e, (ofDocuments documents).entryOf? id = some e →
        ∃ d outer, (ofDocuments documents).documentOf? e = some d ∧
          (ofDocuments documents).Around e.parent outer ∧
          (s.extract d e = .ok (some u) →
            u.descriptor = .ofDecl (outer.map (·.2.decl)) e.decl d.nameSpace) := by
  refine ⟨fun outer decl nameSpace h => emit_of_descriptor h s, fun documents id e he => ?_⟩
  have hmem := List.mem_of_getElem? he
  obtain ⟨d, hd⟩ := exists_documentOf? hmem
  obtain ⟨outer, hup, henclosing, -⟩ := encloses_of_mem hmem
  refine ⟨d, outer, hd, hup, fun hextract => ?_⟩
  obtain ⟨_, _, -, -, rfl⟩ := Settings.extract_eq_some_iff.1 hextract
  rw [← henclosing]
  rfl

theorem unit_reopens_nestedUnions :
    ∃ e u, (ofDocuments [nestedUnions]).entryOf? 1 = some e ∧
      Settings.extract { indentWidth := 2 } nestedUnions e = .ok (some u) ∧
      u.emit { indentWidth := 2 } =
        .ok (CodeLine.printAll 2 (u.reopenedLines [outerClass] e.decl (some "Demo"))) ∧
      CodeLine.printAll 2 (CodeLine.openings 0 [outerClass.header.reopened,
        e.decl.header.reopenedUnion] ++ CodeLine.closings 0 2) =
        "internal partial class Outer<T>\n\x7b\n" ++
          "  internal partial struct Pair<U> : System.IEquatable<Pair<U>>\n  \x7b\n" ++
          "  \x7d\n\x7d\n" := by
  obtain ⟨e, he⟩ : ∃ e, (ofDocuments [nestedUnions]).entryOf? 1 = some e := ⟨_, rfl⟩
  obtain ⟨u, hu⟩ : ∃ u, Settings.extract { indentWidth := 2 } nestedUnions e = .ok (some u) := by
    obtain rfl := Option.some.inj he
    exact ⟨_, rfl⟩
  obtain ⟨hemit, hdeclared⟩ := unit_reopens_declarations u { indentWidth := 2 }
  obtain ⟨d, outer, hd, hup, hdescriptor⟩ := hdeclared [nestedUnions] 1 e he
  obtain rfl := Option.some.inj he
  obtain rfl := Option.some.inj hd
  obtain rfl := hup.unique (.inside rfl .outermost)
  exact ⟨_, u, he, hu, hemit _ _ _ (hdescriptor hu), by decide⟩

end UnionType

end CaseUnion
