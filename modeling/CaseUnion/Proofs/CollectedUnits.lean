import CaseUnion.Generation
import CaseUnion.Proofs.CollectedContents

/-!
# Units collected in memory

The collection finds under every path what was inserted there last (`get?_collect_last`), so units
with different paths are all found again (`get?_collect`). It is sorted, and so it has one entry for
each unit exactly if the paths are different (`length_collect_eq_iff`).
-/

namespace CaseUnion

theorem exists_last {α : Type} {P : α → Prop} {xs : List α} (h : ∃ x ∈ xs, P x) :
    ∃ before last after, xs = before ++ last :: after ∧ P last ∧ ∀ x ∈ after, ¬ P x := by
  induction xs with
  | nil => simp at h
  | cons x rest ih =>
    by_cases hrest : ∃ y ∈ rest, P y
    · obtain ⟨before, last, after, rfl, hlast, hafter⟩ := ih hrest
      exact ⟨x :: before, last, after, rfl, hlast, hafter⟩
    · have hothers : ∀ y ∈ rest, ¬ P y := fun y hy hP => hrest ⟨y, hy, hP⟩
      obtain ⟨y, hy, hP⟩ := h
      obtain rfl : y = x := (List.mem_cons.1 hy).resolve_right fun hy => hothers y hy hP
      exact ⟨[], y, rest, rfl, hP, hothers⟩

namespace Collected

def collect (c : Collected) (units : List GeneratedUnit) : Collected :=
  units.foldl (fun c u => c.insert u.path u.text) c

variable {units : List GeneratedUnit}

theorem collect_cons (c : Collected) (u : GeneratedUnit) (units : List GeneratedUnit) :
    c.collect (u :: units) = (c.insert u.path u.text).collect units := rfl

theorem get?_collect_of_not_mem {path : String} (c : Collected)
    (h : ∀ u ∈ units, ¬ Path.same path u.path) : (c.collect units).get? path = c.get? path := by
  induction units generalizing c with
  | nil => rfl
  | cons u rest ih =>
    rw [collect_cons, ih _ fun v hv => h v (List.mem_cons_of_mem u hv), get?_insert,
      if_neg (h u List.mem_cons_self)]

/-- A path stands for the unit that was collected under it last. -/
theorem get?_collect_last {path : String} {before after : List GeneratedUnit} {last : GeneratedUnit}
    (c : Collected) (hlast : Path.same path last.path) (hafter : ∀ u ∈ after, ¬ Path.same path u.path) :
    (c.collect (before ++ last :: after)).get? path = some last.text := by
  rw [collect, List.foldl_append, ← collect, ← collect, collect_cons, get?_collect_of_not_mem _ hafter,
    get?_insert, if_pos hlast]

theorem get?_collect (c : Collected) (h : units.Pairwise fun u v => ¬ Path.same u.path v.path) :
    ∀ u ∈ units, (c.collect units).get? u.path = some u.text := by
  intro u hu
  obtain ⟨before, after, rfl⟩ := List.append_of_mem hu
  have hafter := (List.pairwise_cons.1 (List.pairwise_append.1 h).2.1).1
  exact get?_collect_last c (Path.same_iff.2 rfl) hafter

theorem exists_get?_collect {path : String} (c : Collected)
    (h : ∃ u ∈ units, Path.same path u.path) :
    ∃ last ∈ units, Path.same path last.path ∧ (c.collect units).get? path = some last.text := by
  obtain ⟨before, last, after, rfl, hlast, hafter⟩ := exists_last h
  exact ⟨last, by simp, hlast, get?_collect_last c hlast hafter⟩

theorem sorted_collect (units : List GeneratedUnit) {c : Collected} (hc : c.Sorted) :
    (c.collect units).Sorted := by
  induction units generalizing c with
  | nil => exact hc
  | cons u rest ih => exact ih (sorted_insert u.path u.text hc)

/-- Units with different paths are collected as they are. -/
theorem perm_collect {c : Collected} (hpaths : units.Pairwise fun u v => ¬ Path.same u.path v.path)
    (hfresh : ∀ u ∈ units, ∀ x ∈ c, ¬ Path.same u.path x.1) :
    (c.collect units).Perm (units.map (fun u => (u.path, u.text)) ++ c) := by
  induction units generalizing c with
  | nil => exact List.Perm.refl _
  | cons u rest ih =>
    obtain ⟨hu, hrest⟩ := List.pairwise_cons.1 hpaths
    obtain ⟨hufresh, hrestfresh⟩ := List.forall_mem_cons.1 hfresh
    have hstill : ∀ v ∈ rest, ∀ x ∈ c.insert u.path u.text, ¬ Path.same v.path x.1 := by
      intro v hv x hx hsame
      rcases mem_insert hx with hpath | hx
      · exact hu v hv
          (Path.same_iff.2 ((Path.same_iff.1 hpath).symm.trans (Path.same_iff.1 hsame).symm))
      · exact hrestfresh v hv x hx hsame
    rw [collect_cons, List.map_cons, List.cons_append]
    exact ((ih hrest hstill).trans ((perm_insert u.text hufresh).append_left _)).trans
      List.perm_middle

/-- Units with different paths are collected as they are, in whichever order they come. -/
theorem perm_collect_nil (hpaths : units.Pairwise fun u v => ¬ Path.same u.path v.path) :
    (collect [] units).Perm (units.map fun u => (u.path, u.text)) := by
  have hperm := perm_collect (c := []) hpaths fun _ _ _ hx => absurd hx List.not_mem_nil
  rwa [List.append_nil] at hperm

theorem mem_collect_iff (hpaths : units.Pairwise fun u v => ¬ Path.same u.path v.path)
    {x : String × String} : x ∈ collect [] units ↔ ∃ u ∈ units, (u.path, u.text) = x := by
  rw [(perm_collect_nil hpaths).mem_iff, List.mem_map]

theorem collect_eq_of_perm {order : List GeneratedUnit} (h : order.Perm units)
    (hpaths : units.Pairwise fun u v => ¬ Path.same u.path v.path) :
    collect [] order = collect [] units := by
  have horder : order.Pairwise fun u v => ¬ Path.same u.path v.path :=
    h.symm.pairwise hpaths fun hne hsame => hne (Path.same_iff.2 (Path.same_iff.1 hsame).symm)
  have hentries : (collect [] order).Perm (collect [] units) :=
    (perm_collect_nil horder).trans ((h.map _).trans (perm_collect_nil hpaths).symm)
  refine hentries.eq_of_pairwise (fun x y _ _ hxy hyx => ?_)
    (sorted_collect order List.Pairwise.nil) (sorted_collect units List.Pairwise.nil)
  exact absurd (Path.precedes_trans hxy hyx) (Path.not_precedes_of_same (Path.same_iff.2 rfl))

theorem length_collect_le (c : Collected) (units : List GeneratedUnit) :
    (c.collect units).length ≤ c.length + units.length := by
  induction units generalizing c with
  | nil => exact Nat.le_refl _
  | cons u rest ih =>
    have hinsert := length_insert_le u.path u.text c
    have hrest := ih (c.insert u.path u.text)
    rw [collect_cons, List.length_cons]
    omega

/-- Every unit takes up an entry of its own exactly if the paths are different. -/
theorem length_collect_eq_iff (units : List GeneratedUnit) {c : Collected} (hc : c.Sorted) :
    (c.collect units).length = c.length + units.length ↔
      (units.Pairwise fun u v => ¬ Path.same u.path v.path) ∧
        ∀ u ∈ units, ∀ x ∈ c, ¬ Path.same u.path x.1 := by
  induction units generalizing c with
  | nil => simp [collect]
  | cons u rest ih =>
    have hrest := ih (sorted_insert u.path u.text hc)
    rw [collect_cons, List.length_cons, List.pairwise_cons]
    constructor
    · intro hlength
      -- no insertion adds more than one entry, so each of them adds exactly one
      have hinsert := length_insert_le u.path u.text c
      have hle := length_collect_le (c.insert u.path u.text) rest
      have hfresh : ∀ x ∈ c, ¬ Path.same u.path x.1 := by
        intro x hx hsame
        have hkept := length_insert_of_same u.text hc ⟨x, hx, hsame⟩
        omega
      have hone := length_insert u.text hfresh
      obtain ⟨hpairwise, hothers⟩ := hrest.1 (by omega)
      refine ⟨⟨?_, hpairwise⟩, ?_⟩
      · intro v hv hsame
        obtain ⟨x, hx, hpath⟩ := exists_mem_insert_same u.path u.text c
        exact hothers v hv x hx
          (Path.same_iff.2 ((Path.same_iff.1 hsame).symm.trans (Path.same_iff.1 hpath)))
      · intro v hv x hx
        rcases List.mem_cons.1 hv with rfl | hv
        · exact hfresh x hx
        · obtain ⟨y, hy, hkey⟩ := exists_mem_insert_of_mem u.path u.text hx
          rw [← hkey]
          exact hothers v hv y hy
    · rintro ⟨hpairwise, hothers⟩
      have hperm := perm_collect (List.pairwise_cons.2 hpairwise) hothers
      rw [← collect_cons, hperm.length_eq, List.length_append, List.length_map, List.length_cons]
      omega

end Collected

namespace MemoryFiles

theorem modify_concat (opened : List MemoryFile) (f : MemoryFile) (g : MemoryFile → MemoryFile) :
    (opened ++ [f]).modify opened.length g = opened ++ [g f] := by
  induction opened with
  | nil => rfl
  | cons first rest ih => exact congrArg (first :: ·) ih

/-- The steps that write a unit into an attached file hand it over. -/
theorem run_unit (m : MemoryFiles) (u : GeneratedUnit) :
    m.run [.create u.path true, .write m.opened.length u.text, .flush m.opened.length] =
      ⟨m.opened ++ [⟨u.path, true, u.text⟩], m.collected.insert u.path u.text⟩ := by
  simp only [run, List.foldl_cons, List.foldl_nil, step, modify_concat]
  simp

theorem collected_run (m : MemoryFiles) (units : List GeneratedUnit) :
    (m.run (Generation.memorySteps true m.opened.length units)).collected =
      m.collected.collect units := by
  induction units generalizing m with
  | nil => rfl
  | cons u rest ih =>
    have hunit := run_unit m u
    rw [run] at hunit
    rw [Generation.memorySteps, run, List.foldl_append, hunit, Collected.collect_cons]
    have hrest := ih ⟨m.opened ++ [⟨u.path, true, u.text⟩], m.collected.insert u.path u.text⟩
    rwa [List.length_append] at hrest

end MemoryFiles
end CaseUnion
