import Mathlib.Data.List.Pairwise
import Mathlib.Tactic.ByContra
import CaseUnion.MemoryFiles
import CaseUnion.Proofs.PathOrder

/-!
# Collected contents

A content that is inserted at a path is found there, whatever was there before, and nothing else
changes (`get?_insert`). The entries stay sorted by their paths (`sorted_insert`), so there is at most
one for a path (`eq_of_same`).
-/

namespace CaseUnion

namespace Collected

variable {α : Type}

theorem get?_insert (path : String) (content : α) (other : String) (c : Collected α) :
    (c.insert path content).get? other = if Path.same other path then some content else c.get? other := by
  induction c with
  | nil =>
    by_cases hother : Path.same other path
    · simp [insert, get?, hother]
    · simp [insert, get?, hother]
  | cons entry rest ih =>
    obtain ⟨known, old⟩ := entry
    rw [insert]
    by_cases hknown : Path.same path known
    · have hsame : Path.same other known = Path.same other path := by
        rw [Path.same, Path.same, Path.same_iff.1 hknown]
      rw [if_pos hknown]
      by_cases hother : Path.same other path
      · simp [get?, hsame, hother]
      · simp [get?, hsame, hother]
    · rw [if_neg hknown]
      by_cases hbefore : Path.precedes path known
      · rw [if_pos hbefore]
        by_cases hother : Path.same other path
        · simp [get?, hother]
        · simp [get?, hother]
      · rw [if_neg hbefore]
        by_cases hother : Path.same other known
        · have hne : ¬ Path.same other path := by
            intro heq
            exact hknown (Path.same_iff.2 ((Path.same_iff.1 heq).symm.trans (Path.same_iff.1 hother)))
          simp [get?, hother, hne]
        · simp only [get?, List.find?_cons, hother] at ih ⊢
          exact ih

theorem get?_congr {c : Collected α} {path other : String} (h : Path.same path other) :
    c.get? path = c.get? other := by
  simp only [get?, Path.same, Path.same_iff.1 h]

theorem mem_insert {path : String} {content : α} {c : Collected α} {x : String × α}
    (h : x ∈ c.insert path content) : Path.same x.1 path ∨ x ∈ c := by
  induction c with
  | nil =>
    rw [insert, List.mem_singleton] at h
    rw [h]
    exact Or.inl (Path.same_iff.2 rfl)
  | cons entry rest ih =>
    obtain ⟨known, old⟩ := entry
    rw [insert] at h
    split at h
    · rename_i hsame
      rcases List.mem_cons.1 h with rfl | h
      · exact Or.inl (Path.same_iff.2 (Path.same_iff.1 hsame).symm)
      · exact Or.inr (List.mem_cons_of_mem _ h)
    · split at h
      · rcases List.mem_cons.1 h with rfl | h
        · exact Or.inl (Path.same_iff.2 rfl)
        · exact Or.inr h
      · rcases List.mem_cons.1 h with rfl | h
        · exact Or.inr List.mem_cons_self
        · exact (ih h).imp id (List.mem_cons_of_mem _)

/-- A path that is not there yet takes up an entry of its own. -/
theorem perm_insert {path : String} (content : α) {c : Collected α}
    (h : ∀ x ∈ c, ¬ Path.same path x.1) : (c.insert path content).Perm ((path, content) :: c) := by
  induction c with
  | nil => exact List.Perm.refl _
  | cons entry rest ih =>
    obtain ⟨known, old⟩ := entry
    have hrest := ih fun x hx => h x (List.mem_cons_of_mem _ hx)
    rw [insert, if_neg (h (known, old) List.mem_cons_self)]
    split
    · exact List.Perm.refl _
    · exact (hrest.cons _).trans (List.Perm.swap _ _ _)

theorem length_insert {path : String} (content : α) {c : Collected α}
    (h : ∀ x ∈ c, ¬ Path.same path x.1) : (c.insert path content).length = c.length + 1 :=
  (perm_insert content h).length_eq

theorem exists_mem_insert_same (path : String) (content : α) (c : Collected α) :
    ∃ x ∈ c.insert path content, Path.same path x.1 := by
  induction c with
  | nil => exact ⟨(path, content), List.mem_singleton.2 rfl, Path.same_iff.2 rfl⟩
  | cons entry rest ih =>
    obtain ⟨known, old⟩ := entry
    rw [insert]
    split
    · rename_i hsame
      exact ⟨_, List.mem_cons_self, hsame⟩
    · split
      · exact ⟨_, List.mem_cons_self, Path.same_iff.2 rfl⟩
      · obtain ⟨x, hx, hsame⟩ := ih
        exact ⟨x, List.mem_cons_of_mem _ hx, hsame⟩

theorem exists_mem_insert_of_mem (path : String) (content : α) {c : Collected α} {x : String × α}
    (h : x ∈ c) : ∃ y ∈ c.insert path content, y.1 = x.1 := by
  induction c with
  | nil => cases h
  | cons entry rest ih =>
    obtain ⟨known, old⟩ := entry
    rw [insert]
    split
    · rcases List.mem_cons.1 h with rfl | h
      · exact ⟨_, List.mem_cons_self, rfl⟩
      · exact ⟨x, List.mem_cons_of_mem _ h, rfl⟩
    · split
      · exact ⟨x, List.mem_cons_of_mem _ h, rfl⟩
      · rcases List.mem_cons.1 h with rfl | h
        · exact ⟨_, List.mem_cons_self, rfl⟩
        · obtain ⟨y, hy, hkey⟩ := ih h
          exact ⟨y, List.mem_cons_of_mem _ hy, hkey⟩

theorem length_insert_le (path : String) (content : α) (c : Collected α) :
    (c.insert path content).length ≤ c.length + 1 := by
  induction c with
  | nil => exact Nat.le_refl _
  | cons entry rest ih =>
    obtain ⟨known, old⟩ := entry
    rw [insert]
    split
    · simp
    · split
      · exact Nat.le_refl _
      · simpa using ih

/-- The entries are in the order of their paths. -/
def Sorted (c : Collected α) : Prop := c.Pairwise fun x y => Path.precedes x.1 y.1

section
variable {c : Collected α}

theorem exists_mem_of_get? {path : String} {content : α} (h : c.get? path = some content) :
    ∃ x ∈ c, Path.same path x.1 ∧ x.2 = content := by
  obtain ⟨x, hx, rfl⟩ := Option.map_eq_some_iff.1 h
  exact ⟨x, List.mem_of_find?_eq_some hx, by simpa using List.find?_some hx, rfl⟩

theorem eq_of_same {x y : String × α} (hc : c.Sorted) (hx : x ∈ c) (hy : y ∈ c)
    (hsame : Path.same x.1 y.1) : x = y := by
  by_contra hne
  have hdiffer : c.Pairwise fun x y => ¬ Path.same x.1 y.1 :=
    hc.imp fun hbefore hsame => Path.not_precedes_of_same hsame hbefore
  have hsymm : Std.Symm fun x y : String × α => ¬ Path.same x.1 y.1 :=
    ⟨fun _ _ h hsame => h (Path.same_iff.2 (Path.same_iff.1 hsame).symm)⟩
  exact hdiffer.forall hx hy hne hsame

theorem get?_of_mem {x : String × α} (hc : c.Sorted) (hx : x ∈ c) : c.get? x.1 = some x.2 := by
  have hsome : (c.find? fun y => Path.same x.1 y.1).isSome :=
    List.find?_isSome.2 ⟨x, hx, Path.same_iff.2 rfl⟩
  obtain ⟨y, hy⟩ := Option.isSome_iff_exists.1 hsome
  have heq := eq_of_same hc hx (List.mem_of_find?_eq_some hy) (by simpa using List.find?_some hy)
  rw [get?, hy, ← heq]
  rfl

end

theorem sorted_insert (path : String) (content : α) {c : Collected α} (h : c.Sorted) :
    (c.insert path content).Sorted := by
  induction c with
  | nil => exact List.pairwise_singleton _ _
  | cons entry rest ih =>
    obtain ⟨known, old⟩ := entry
    obtain ⟨hknown, hrest⟩ := List.pairwise_cons.1 h
    rw [insert]
    split
    · exact List.pairwise_cons.2 ⟨hknown, hrest⟩
    · rename_i hsame
      split
      · rename_i hbefore
        refine List.pairwise_cons.2 ⟨fun x hx => ?_, h⟩
        rcases List.mem_cons.1 hx with rfl | hx
        · exact hbefore
        · exact Path.precedes_trans hbefore (hknown x hx)
      · rename_i hnot
        have hbehind : Path.precedes known path := Path.precedes_of_not_precedes hsame hnot
        refine List.pairwise_cons.2 ⟨fun x hx => ?_, ih hrest⟩
        rcases mem_insert hx with hpath | hx
        · exact Path.precedes_of_same hbehind (Path.same_iff.2 (Path.same_iff.1 hpath).symm)
        · exact hknown x hx

theorem length_insert_of_same {path : String} (content : α) {c : Collected α} (hc : c.Sorted)
    (h : ∃ x ∈ c, Path.same path x.1) : (c.insert path content).length = c.length := by
  induction c with
  | nil => simp at h
  | cons entry rest ih =>
    obtain ⟨known, old⟩ := entry
    obtain ⟨hknown, hrest⟩ := List.pairwise_cons.1 hc
    rw [insert]
    split
    · rfl
    · rename_i hsame
      obtain ⟨x, hx, hpath⟩ := h
      have hx : x ∈ rest := by
        rcases List.mem_cons.1 hx with rfl | hx
        · exact absurd hpath hsame
        · exact hx
      split
      · rename_i hbefore
        have hlt := Path.precedes_trans hbefore (hknown x hx)
        exact absurd hlt (Path.not_precedes_of_same hpath)
      · rw [List.length_cons, ih hrest ⟨x, hx, hpath⟩, List.length_cons]

end Collected
end CaseUnion
