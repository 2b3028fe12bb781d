import Mathlib.Data.List.Basic
import CaseUnion.Failure
import CaseUnion.Proofs.CollectedResults

/-!
# Flattened failures

The address of a failure within a group is the position of a member, then the position of a member
of that one, and so on. `Failure.flat` lists the failures that are reached and are no groups
themselves, in the lexicographic order of their addresses (`mem_placed_iff`, `pairwise_placed`).
Unless a group is empty, what is said of a group at once is what its flattened failures say: code and
span are those of the first, and it is fatal exactly if one of them is (`flat_agrees`).
-/

namespace CaseUnion.Failure

def IsGroup : Failure → Prop
  | several _ => True
  | _ => False

/-- A failure is no group, or all its members have the property. A context is not looked into. -/
@[elab_as_elim]
theorem groupInduction {motive : Failure → Prop} (f : Failure)
    (single : ∀ f, ¬ f.IsGroup → motive f)
    (several : ∀ members, (∀ m ∈ members, motive m) → motive (several members)) : motive f :=
  match f with
  | plain cause span => single (plain cause span) id
  | context inner source labels => single (context inner source labels) id
  | .several members => several members fun m _ => groupInduction m single several

/-- No group at any level is empty, not even within a context. -/
inductive Filled : Failure → Prop
  | plain (cause : Cause) (span : Option Span) : Filled (plain cause span)
  | context {inner : Failure} (source : Option Source) (labels : List Label) :
      Filled inner → Filled (context inner source labels)
  | several {members : List Failure} :
      members ≠ [] → (∀ m ∈ members, Filled m) → Filled (several members)

/-- The failure at an address. Only a group has members. -/
def at? : Failure → List Nat → Option Failure
  | f, [] => some f
  | several members, i :: rest => members[i]?.bind fun m => at? m rest
  | _, _ :: _ => none

mutual

/-- The failures that are no groups, with their addresses. -/
def placed : Failure → List (List Nat × Failure)
  | several members => placedFrom 0 members
  | f => [([], f)]

/-- The failures in members of which the first has the given position. -/
def placedFrom (i : Nat) : List Failure → List (List Nat × Failure)
  | [] => []
  | m :: rest => m.placed.map (fun x => (i :: x.1, x.2)) ++ placedFrom (i + 1) rest

end

variable {f g : Failure} {members : List Failure} {a : List Nat}

/-! ### Flattening -/

theorem flatAll_eq (members : List Failure) : flatAll members = members.flatMap flat := by
  induction members with
  | nil => rfl
  | cons m rest ih => rw [flatAll, ih, List.flatMap_cons]

theorem flat_several (members : List Failure) : (several members).flat = members.flatMap flat := by
  rw [flat, flatAll_eq]

theorem flat_of_not_isGroup (h : ¬ f.IsGroup) : f.flat = [f] := by
  cases f with
  | plain cause span => rw [flat]; exact nofun
  | context inner source labels => rw [flat]; exact nofun
  | several members => exact absurd trivial h

theorem not_isGroup_of_mem_flat (h : g ∈ f.flat) : ¬ g.IsGroup := by
  induction f using groupInduction with
  | single f hf =>
    rw [flat_of_not_isGroup hf, List.mem_singleton] at h
    rwa [h]
  | several members ih =>
    rw [flat_several, List.mem_flatMap] at h
    obtain ⟨m, hm, hg⟩ := h
    exact ih m hm hg

/-! ### Addresses -/

theorem placedFrom_eq (i : Nat) (members : List Failure) : placedFrom i members =
    (members.zipIdx i).flatMap fun m => m.1.placed.map fun x => (m.2 :: x.1, x.2) := by
  induction members generalizing i with
  | nil => rfl
  | cons m rest ih => rw [placedFrom, ih, List.zipIdx_cons, List.flatMap_cons]

theorem placed_several (members : List Failure) : (several members).placed =
    members.zipIdx.flatMap fun m => m.1.placed.map fun x => (m.2 :: x.1, x.2) := by
  rw [placed, placedFrom_eq]

theorem placed_of_not_isGroup (h : ¬ f.IsGroup) : f.placed = [([], f)] := by
  cases f with
  | plain cause span => rw [placed]; exact nofun
  | context inner source labels => rw [placed]; exact nofun
  | several members => exact absurd trivial h

theorem at?_of_not_isGroup (h : ¬ f.IsGroup) : f.at? a = if a = [] then some f else none := by
  cases a with
  | nil => rfl
  | cons i rest =>
    cases f with
    | plain cause span => rfl
    | context inner source labels => rfl
    | several members => exact absurd trivial h

theorem mem_placed_iff : (a, g) ∈ f.placed ↔ f.at? a = some g ∧ ¬ g.IsGroup := by
  induction f using groupInduction generalizing a with
  | single f hf =>
    rw [placed_of_not_isGroup hf, at?_of_not_isGroup hf, List.mem_singleton, Prod.mk.injEq]
    constructor
    · rintro ⟨rfl, rfl⟩
      exact ⟨rfl, hf⟩
    · rintro ⟨hat, -⟩
      split at hat
      · exact ⟨‹_›, (Option.some.inj hat).symm⟩
      · cases hat
  | several members ih =>
    rw [placed_several, List.mem_flatMap]
    constructor
    · rintro ⟨⟨m, i⟩, hm, hplaced⟩
      obtain ⟨⟨rest, g'⟩, hrest, heq⟩ := List.mem_map.1 hplaced
      cases heq
      have hposition := List.mem_zipIdx_iff_getElem?.1 hm
      obtain ⟨hat, hg⟩ := (ih m (List.mem_of_getElem? hposition)).1 hrest
      exact ⟨by rw [at?, hposition]; exact hat, hg⟩
    · rintro ⟨hat, hg⟩
      cases a with
      | nil =>
        cases hat
        exact absurd trivial hg
      | cons i rest =>
        obtain ⟨m, hposition, hrest⟩ := Option.bind_eq_some_iff.1 hat
        refine ⟨(m, i), List.mem_zipIdx_iff_getElem?.2 hposition, List.mem_map.2 ?_⟩
        exact ⟨(rest, g), (ih m (List.mem_of_getElem? hposition)).2 ⟨hrest, hg⟩, rfl⟩

theorem pairwise_placed (f : Failure) : f.placed.Pairwise fun x y => x.1 < y.1 := by
  induction f using groupInduction with
  | single f hf =>
    rw [placed_of_not_isGroup hf]
    exact List.pairwise_singleton _ _
  | several members ih =>
    rw [placed_several, List.pairwise_flatMap]
    refine ⟨fun m hm => List.pairwise_map.2 ?_, (pairwise_snd_zipIdx members).imp ?_⟩
    · have hm := List.mem_of_getElem? (List.mem_zipIdx_iff_getElem?.1 hm)
      exact (ih m.1 hm).imp fun hlt => List.cons_lt_cons_iff.2 (.inr ⟨rfl, hlt⟩)
    · intro m m' hlt x hx y hy
      obtain ⟨x, -, rfl⟩ := List.mem_map.1 hx
      obtain ⟨y, -, rfl⟩ := List.mem_map.1 hy
      exact List.cons_lt_cons_iff.2 (.inl hlt)

theorem map_snd_placed (f : Failure) : f.placed.map (·.2) = f.flat := by
  induction f using groupInduction with
  | single f hf =>
    rw [placed_of_not_isGroup hf, flat_of_not_isGroup hf]
    rfl
  | several members ih =>
    rw [placed_several, flat_several, List.map_flatMap]
    conv_rhs => rw [← List.zipIdx_map_fst 0 members, List.flatMap_map]
    refine List.flatMap_congr fun m hm => ?_
    have hm := List.mem_of_getElem? (List.mem_zipIdx_iff_getElem?.1 hm)
    rw [List.map_map, ← ih m.1 hm]
    rfl

/-! ### What is said at once -/

theorem anyFatal_iff (members : List Failure) : anyFatal members ↔ ∃ m ∈ members, m.isFatal := by
  induction members with
  | nil => simp [anyFatal]
  | cons m rest ih =>
    rw [anyFatal, Bool.or_eq_true, ih, List.exists_mem_cons_iff]
    rfl

theorem isFatal_several_iff (h : members ≠ []) :
    (several members).isFatal ↔ ∃ m ∈ members, m.isFatal := by
  obtain ⟨first, rest, rfl⟩ := List.exists_cons_of_ne_nil h
  rw [← anyFatal_iff, isFatal, severity]
  split
  · exact iff_of_true rfl ‹_›
  · exact iff_of_false nofun ‹_›

theorem Filled.isFatal_iff (h : f.Filled) : f.isFatal ↔ ∃ g ∈ f.flat, g.isFatal := by
  induction h with
  | plain cause span =>
    rw [flat_of_not_isGroup id]
    simp
  | context source labels _ _ =>
    rw [flat_of_not_isGroup id]
    simp
  | several hne _ ih =>
    rw [isFatal_several_iff hne, flat_several]
    simp only [List.mem_flatMap]
    constructor
    · rintro ⟨m, hm, hfatal⟩
      obtain ⟨g, hg, hfatal⟩ := (ih m hm).1 hfatal
      exact ⟨g, ⟨m, hm, hg⟩, hfatal⟩
    · rintro ⟨g, ⟨m, hm, hg⟩, hfatal⟩
      exact ⟨m, hm, (ih m hm).2 ⟨g, hg, hfatal⟩⟩

/-- The first cause of a failure is that of the first of its flattened failures. -/
theorem Filled.exists_flat_eq_cons (h : f.Filled) :
    ∃ first rest, f.flat = first :: rest ∧ first.root? = f.root? := by
  induction h with
  | plain cause span => exact ⟨_, [], flat_of_not_isGroup id, rfl⟩
  | context source labels _ _ => exact ⟨_, [], flat_of_not_isGroup id, rfl⟩
  | @several members hne _ ih =>
    obtain ⟨m, others, rfl⟩ := List.exists_cons_of_ne_nil hne
    obtain ⟨first, rest, hflat, hroot⟩ := ih m List.mem_cons_self
    refine ⟨first, rest ++ others.flatMap flat, ?_, hroot⟩
    rw [flat_several, List.flatMap_cons, hflat, List.cons_append]

/-- How one failure is flattened to a list of them. -/
structure FlattensTo (f : Failure) (flattened : List Failure) : Prop where
  ne_nil : flattened ≠ []
  single : ∀ g ∈ flattened, ¬ g.IsGroup
  inOrder : ∃ placed : List (List Nat × Failure), placed.map (·.2) = flattened ∧
    (placed.Pairwise fun x y => x.1 < y.1) ∧
    ∀ a g, (a, g) ∈ placed ↔ f.at? a = some g ∧ ¬ g.IsGroup
  leads : ∃ first rest, flattened = first :: rest ∧ f.code = first.code ∧ f.span = first.span
  fatal : f.isFatal ↔ ∃ g ∈ flattened, g.isFatal
  stays : ∀ g ∈ flattened, g.flat = [g]

/-- A failure in which no group is empty is flattened to all failures in it that are no groups, from
the left to the right, and they agree with what is said of it. -/
theorem flat_agrees (h : f.Filled) : f.FlattensTo f.flat := by
  obtain ⟨first, rest, hflat, hroot⟩ := h.exists_flat_eq_cons
  constructor
  case ne_nil =>
    rw [hflat]
    exact List.cons_ne_nil first rest
  case single => exact fun g => not_isGroup_of_mem_flat
  case inOrder => exact ⟨f.placed, map_snd_placed f, pairwise_placed f, fun a g => mem_placed_iff⟩
  case leads =>
    refine ⟨first, rest, hflat, ?_, ?_⟩
    · rw [code, code, hroot]
    · rw [span, span, hroot]
  case fatal => exact h.isFatal_iff
  case stays => exact fun g hg => flat_of_not_isGroup (not_isGroup_of_mem_flat hg)

/-- A group within a context, and the context in a group with a group of one member. -/
def nestedGroups : Failure :=
  several [context (several [of (.unknownCase "Shape" "A"), of (.fileNotFound "b")]) none [],
    several [plain .defaultInitialization (some ⟨8, 22⟩)]]

theorem filled_nestedGroups : nestedGroups.Filled := by
  refine .several nofun (List.forall_mem_cons.2 ⟨.context none [] ?_, List.forall_mem_singleton.2 ?_⟩)
  · exact .several nofun
      (List.forall_mem_cons.2 ⟨.plain _ _, List.forall_mem_singleton.2 (.plain _ _)⟩)
  · exact .several nofun (List.forall_mem_singleton.2 (.plain _ _))

/-- The context is not taken apart, and its code is that of the whole. -/
theorem flat_agrees_nestedGroups : nestedGroups.Filled ∧
    nestedGroups.FlattensTo
      [context (several [of (.unknownCase "Shape" "A"), of (.fileNotFound "b")]) none [],
        plain .defaultInitialization (some ⟨8, 22⟩)] ∧
    nestedGroups.code.text = "DR1" :=
  ⟨filled_nestedGroups, flat_agrees filled_nestedGroups, rfl⟩

end CaseUnion.Failure
