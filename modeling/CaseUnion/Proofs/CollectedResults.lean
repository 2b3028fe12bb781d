import Mathlib.Tactic.ByContra
import CaseUnion.Extraction

/-!
# Collected results

`Extraction.collect` passes over the results once. A list is described by positions of the results
(`ByPosition`): the failures by those that failed (`failures_collect`), and the unions by those that
lead their key, with no union with cases of the same key in front (`exists_leading_collect`).
-/

namespace CaseUnion

theorem pairwise_snd_zipIdx {α : Type} (l : List α) : l.zipIdx.Pairwise fun a b => a.2 < b.2 := by
  rw [← List.pairwise_map, List.zipIdx_map_snd]
  exact List.pairwise_lt_range'

/-- The list has one element for each position that `P` speaks of, in the order of positions. -/
def ByPosition {α : Type} (P : Nat → α → Prop) (xs : List α) : Prop :=
  ∃ placed : List (Nat × α), placed.map (·.2) = xs ∧ (placed.Pairwise fun a b => a.1 < b.1) ∧
    ∀ i x, (i, x) ∈ placed ↔ P i x

namespace ByPosition

variable {α : Type} {P Q : Nat → α → Prop} {xs : List α} {x : α}

theorem nil (h : ∀ i x, ¬ P i x) : ByPosition P [] :=
  ⟨[], rfl, .nil, fun i x => iff_of_false List.not_mem_nil (h i x)⟩

theorem congr (h : ByPosition P xs) (hiff : ∀ i x, P i x ↔ Q i x) : ByPosition Q xs := by
  obtain ⟨placed, hxs, hpairwise, hmem⟩ := h
  exact ⟨placed, hxs, hpairwise, fun i x => (hmem i x).trans (hiff i x)⟩

theorem mem_iff (h : ByPosition P xs) : x ∈ xs ↔ ∃ i, P i x := by
  obtain ⟨placed, rfl, -, hmem⟩ := h
  simp only [List.mem_map, Prod.exists, hmem, exists_eq_right]

theorem pairwise (h : ByPosition P xs) {R : α → α → Prop}
    (hR : ∀ i j x y, i < j → P i x → P j y → R x y) : xs.Pairwise R := by
  obtain ⟨placed, rfl, hpairwise, hmem⟩ := h
  rw [List.pairwise_map]
  exact hpairwise.imp_of_mem fun ha hb hlt =>
    hR _ _ _ _ hlt ((hmem _ _).1 ha) ((hmem _ _).1 hb)

theorem skip (h : ByPosition (fun i => P (i + 1)) xs) (hnone : ∀ x, ¬ P 0 x) : ByPosition P xs := by
  obtain ⟨placed, rfl, hpairwise, hmem⟩ := h
  refine ⟨placed.map fun a => (a.1 + 1, a.2), by simp, ?_, fun i x => ?_⟩
  · rw [List.pairwise_map]
    exact hpairwise.imp Nat.succ_lt_succ
  · cases i with
    | zero => simp [hnone]
    | succ i => simp [← hmem]

theorem cons (h : ByPosition (fun i => P (i + 1)) xs) (hx : ∀ y, P 0 y ↔ y = x) :
    ByPosition P (x :: xs) := by
  obtain ⟨placed, rfl, hpairwise, hmem⟩ := h
  refine ⟨(0, x) :: placed.map fun a => (a.1 + 1, a.2), by simp, ?_, fun i y => ?_⟩
  · rw [List.pairwise_cons, List.pairwise_map]
    refine ⟨fun b hb => ?_, hpairwise.imp Nat.succ_lt_succ⟩
    obtain ⟨a, -, rfl⟩ := List.mem_map.1 hb
    exact Nat.succ_pos a.1
  · cases i with
    | zero => simp [hx]
    | succ i => simp [← hmem]

theorem append {n : Nat} {ys : List α} (hxs : ByPosition (fun i x => i < n ∧ P i x) xs)
    (hys : ByPosition (fun i => P (n + i)) ys) : ByPosition P (xs ++ ys) := by
  obtain ⟨placed, rfl, hpairwise, hmem⟩ := hxs
  obtain ⟨placed', rfl, hpairwise', hmem'⟩ := hys
  refine ⟨placed ++ placed'.map fun a => (n + a.1, a.2), by simp, ?_, fun i x => ?_⟩
  · rw [List.pairwise_append, List.pairwise_map]
    refine ⟨hpairwise, hpairwise'.imp fun h => Nat.add_lt_add_left h n, fun a ha b hb => ?_⟩
    obtain ⟨c, -, rfl⟩ := List.mem_map.1 hb
    exact Nat.lt_of_lt_of_le ((hmem _ _).1 ha).1 (Nat.le_add_right n c.1)
  · have hbehind : (i, x) ∈ placed'.map (fun a => (n + a.1, a.2)) ↔ n ≤ i ∧ P i x := by
      simp only [List.mem_map, Prod.exists, hmem', Prod.mk.injEq]
      constructor
      · rintro ⟨j, y, h, rfl, rfl⟩
        exact ⟨Nat.le_add_right n j, h⟩
      · rintro ⟨hle, h⟩
        exact ⟨i - n, x, by rwa [Nat.add_sub_cancel' hle], Nat.add_sub_cancel' hle, rfl⟩
    rw [List.mem_append, hmem, hbehind, ← or_and_right]
    exact and_iff_right (Nat.lt_or_ge i n)

theorem filter (h : ByPosition P xs) (q : α → Bool) :
    ByPosition (fun i x => P i x ∧ q x) (xs.filter q) := by
  obtain ⟨placed, rfl, hpairwise, hmem⟩ := h
  refine ⟨placed.filter fun a => q a.2, ?_, hpairwise.filter _, fun i x => ?_⟩
  · rw [List.filter_map]
    rfl
  · rw [List.mem_filter, hmem]

theorem unique {ys : List α} (hxs : ByPosition P xs) (hys : ByPosition P ys) : xs = ys := by
  obtain ⟨placed, rfl, hpairwise, hmem⟩ := hxs
  obtain ⟨placed', rfl, hpairwise', hmem'⟩ := hys
  have hne {l : List (Nat × α)} (hl : l.Pairwise fun a b => a.1 < b.1) : l.Nodup := by
    refine hl.imp fun {a b} hlt heq => ?_
    rw [heq] at hlt
    exact Nat.lt_irrefl b.1 hlt
  have hperm : placed.Perm placed' := (List.perm_ext_iff_of_nodup (hne hpairwise)
    (hne hpairwise')).2 fun a => (hmem a.1 a.2).trans (hmem' a.1 a.2).symm
  exact congrArg _ (hperm.eq_of_pairwise
    (fun _ _ _ _ hlt hgt => absurd hlt (Nat.lt_asymm hgt)) hpairwise hpairwise')

end ByPosition

namespace Extraction

/-- The result at a position is a union with cases whose key was not taken, and no result in front
gives a union with cases for its key. -/
structure Leads (taken : List String) (results : List (String × Except Failure (Option UnionType)))
    (i : Nat) (x : String × UnionType) : Prop where
  result : results[i]? = some (x.1, .ok (some x.2))
  cases_ne_nil : x.2.cases ≠ []
  free : x.1 ∉ taken
  first : ∀ j < i, ∀ v, results[j]? = some (x.1, .ok (some v)) → v.cases = []

section
variable {taken : List String} {key : String} {result : Except Failure (Option UnionType)}
  {rest : List (String × Except Failure (Option UnionType))}

theorem leads_zero_iff {x : String × UnionType} : Leads taken ((key, result) :: rest) 0 x ↔
    (key, result) = (x.1, .ok (some x.2)) ∧ x.2.cases ≠ [] ∧ x.1 ∉ taken := by
  constructor
  · intro h
    exact ⟨Option.some.inj h.result, h.cases_ne_nil, h.free⟩
  · rintro ⟨hresult, hcases, hfree⟩
    exact ⟨congrArg some hresult, hcases, hfree, fun j hj => absurd hj (Nat.not_lt_zero j)⟩

/-- A result that leads nothing does not matter for those behind it. -/
theorem leads_succ_iff_of_not_leads (hnot : ∀ x, ¬ Leads taken ((key, result) :: rest) 0 x)
    (i : Nat) (x : String × UnionType) :
    Leads taken ((key, result) :: rest) (i + 1) x ↔ Leads taken rest i x := by
  constructor
  · intro h
    exact ⟨h.result, h.cases_ne_nil, h.free, fun j hj => h.first (j + 1) (Nat.succ_lt_succ hj)⟩
  · intro h
    refine ⟨h.result, h.cases_ne_nil, h.free, fun j hj v hv => ?_⟩
    cases j with
    | zero =>
      by_contra hcases
      exact hnot (x.1, v) (leads_zero_iff.2 ⟨Option.some.inj hv, hcases, h.free⟩)
    | succ j => exact h.first j (Nat.lt_of_succ_lt_succ hj) v hv

/-- A result that leads takes its key. -/
theorem leads_succ_iff_of_leads {u : UnionType}
    (hleads : Leads taken ((key, result) :: rest) 0 (key, u)) (i : Nat) (x : String × UnionType) :
    Leads taken ((key, result) :: rest) (i + 1) x ↔ Leads (key :: taken) rest i x := by
  constructor
  · intro h
    refine ⟨h.result, h.cases_ne_nil, ?_, fun j hj => h.first (j + 1) (Nat.succ_lt_succ hj)⟩
    rw [List.mem_cons, not_or]
    refine ⟨?_, h.free⟩
    intro hkey
    exact hleads.cases_ne_nil (h.first 0 (Nat.succ_pos i) u (hkey ▸ hleads.result))
  · intro h
    obtain ⟨hne, hfree⟩ := List.ne_and_not_mem_of_not_mem_cons h.free
    refine ⟨h.result, h.cases_ne_nil, hfree, fun j hj v hv => ?_⟩
    cases j with
    | zero => exact absurd (congrArg Prod.fst (Option.some.inj hv)).symm hne
    | succ j => exact h.first j (Nat.lt_of_succ_lt_succ hj) v hv

end

theorem nodup_keys_of_leads {taken : List String}
    {results : List (String × Except Failure (Option UnionType))} {kept : List (String × UnionType)}
    (h : ByPosition (Leads taken results) kept) : (kept.map (·.1)).Nodup := by
  refine List.pairwise_map.2 (h.pairwise fun i j x y hij hx hy heq => hx.cases_ne_nil ?_)
  exact hy.first i hij x.2 (heq ▸ hx.result)

/-- The unions that are collected are those that lead, in the order of results. -/
theorem exists_leading_collect (taken : List String)
    (results : List (String × Except Failure (Option UnionType))) :
    ∃ kept : List (String × UnionType), (collect taken results).unions = kept.map (·.2) ∧
      ByPosition (Leads taken results) kept := by
  induction results generalizing taken with
  | nil => exact ⟨[], rfl, .nil fun i x h => nomatch h.result⟩
  | cons result rest ih =>
    obtain ⟨key, result⟩ := result
    have hskip (hnot : ∀ x, ¬ Leads taken ((key, result) :: rest) 0 x) :
        ∃ kept : List (String × UnionType), (collect taken rest).unions = kept.map (·.2) ∧
          ByPosition (Leads taken ((key, result) :: rest)) kept := by
      obtain ⟨kept, hunions, hkept⟩ := ih taken
      exact ⟨kept, hunions,
        (hkept.congr fun i x => (leads_succ_iff_of_not_leads hnot i x).symm).skip hnot⟩
    rcases result with failure | _ | u
    · exact hskip fun x h => nomatch (leads_zero_iff.1 h).1
    · exact hskip fun x h => nomatch (leads_zero_iff.1 h).1
    · rw [collect]
      by_cases hdrop : u.cases.isEmpty || taken.contains key
      · rw [if_pos hdrop]
        apply hskip
        intro x h
        obtain ⟨heq, hcases, hfree⟩ := leads_zero_iff.1 h
        cases heq
        simp [hcases, hfree] at hdrop
      · rw [if_neg hdrop]
        simp only [Bool.or_eq_true, List.isEmpty_iff, List.contains_iff_mem, not_or] at hdrop
        have hleads : Leads taken ((key, .ok (some u)) :: rest) 0 (key, u) :=
          leads_zero_iff.2 ⟨rfl, hdrop.1, hdrop.2⟩
        obtain ⟨kept, hunions, hkept⟩ := ih (key :: taken)
        refine ⟨(key, u) :: kept, by rw [List.map_cons, ← hunions], ?_⟩
        refine (hkept.congr fun i x => (leads_succ_iff_of_leads hleads i x).symm).cons fun x => ?_
        constructor
        · intro h
          obtain ⟨heq, -⟩ := leads_zero_iff.1 h
          cases heq
          rfl
        · rintro rfl
          exact hleads

theorem failures_collect (taken : List String)
    (results : List (String × Except Failure (Option UnionType))) :
    ByPosition (fun i f => ∃ key, results[i]? = some (key, .error f))
      (collect taken results).failures := by
  induction results generalizing taken with
  | nil => exact .nil fun i f h => nomatch h
  | cons result rest ih =>
    obtain ⟨key, result⟩ := result
    rcases result with failure | _ | u
    · exact (ih taken).cons fun f => by simp [eq_comm]
    · exact (ih taken).skip fun f => by simp
    · rw [collect]
      split
      · exact (ih taken).skip fun f => by simp
      · exact (ih (key :: taken)).skip fun f => by simp

end Extraction
end CaseUnion
