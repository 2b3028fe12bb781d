import Mathlib.Tactic.SplitIfs
import CaseUnion.Proofs.DocumentEditing

/-!
# Spans around an insertion

An insertion moves the starts of spans at or behind its offset and the stops of spans behind it. On
spans that are not empty both maps are strictly increasing, so an insertion keeps and reflects
everything that is said of spans by comparing starts with starts and stops with stops: which span
contains which (`contains_remap`), which of two nested spans is shorter (`length_remap_le_iff`), and
which are nested or disjoint (`nestedOrDisjoint_remap`).
-/

namespace CaseUnion

namespace Span

/-- The span denotes at least one byte. -/
def Proper (s : Span) : Prop := s.start < s.stop

/-- Of the two spans one contains the other, or they have no byte in common. -/
def NestedOrDisjoint (s t : Span) : Prop :=
  s.contains t ∨ t.contains s ∨ s.stop ≤ t.start ∨ t.stop ≤ s.start

instance (s : Span) : Decidable s.Proper := inferInstanceAs (Decidable (s.start < s.stop))

instance (s t : Span) : Decidable (s.NestedOrDisjoint t) :=
  inferInstanceAs (Decidable (s.contains t ∨ t.contains s ∨ s.stop ≤ t.start ∨ t.stop ≤ s.start))

theorem contains_iff {s t : Span} : s.contains t ↔ s.start ≤ t.start ∧ t.stop ≤ s.stop := by
  simp only [contains, Bool.and_eq_true, decide_eq_true_eq]

theorem NestedOrDisjoint.nested {s t inner : Span} (h : s.NestedOrDisjoint t)
    (hinner : inner.Proper) (hs : s.contains inner) (ht : t.contains inner) :
    s.contains t ∨ t.contains s := by
  rcases h with h | h | h | h
  · exact Or.inl h
  · exact Or.inr h
  · rw [contains_iff] at hs ht
    have hlt : inner.start < inner.stop := hinner
    omega
  · rw [contains_iff] at hs ht
    have hlt : inner.start < inner.stop := hinner
    omega

end Span

namespace TextEdit

open Text

theorem remapOffset_insert_start (offset n : Nat) (text : String) :
    (insert offset text).remapOffset n true =
      if offset ≤ n then n + byteLength text.toList else n := by
  simp only [remapOffset_eq, insert, newStop, true_or, and_true]
  split_ifs <;> omega

theorem remapOffset_insert_stop (offset n : Nat) (text : String) :
    (insert offset text).remapOffset n false =
      if offset < n then n + byteLength text.toList else n := by
  simp only [remapOffset_eq, insert, newStop, Bool.false_eq_true, Nat.lt_irrefl, or_self, and_false,
    or_false]
  split_ifs <;> omega

section
variable {offset : Nat} {text : String} {s t : Span}

theorem remap_insert (hs : s.Proper) :
    (insert offset text).remap s =
      ⟨if offset ≤ s.start then s.start + byteLength text.toList else s.start,
        if offset < s.stop then s.stop + byteLength text.toList else s.stop⟩ := by
  have hlt : s.start < s.stop := hs
  simp only [remap, remapOffset_insert_start, remapOffset_insert_stop, Span.mk.injEq, true_and]
  split_ifs <;> omega

theorem proper_remap (hs : s.Proper) : ((insert offset text).remap s).Proper := by
  have hlt : s.start < s.stop := hs
  rw [remap_insert hs]
  simp only [Span.Proper]
  split_ifs <;> omega

theorem contains_remap (hs : s.Proper) (ht : t.Proper) :
    ((insert offset text).remap s).contains ((insert offset text).remap t) = s.contains t := by
  rw [remap_insert hs, remap_insert ht, Bool.eq_iff_iff, Span.contains_iff, Span.contains_iff]
  simp only
  split_ifs <;> omega

/-- The shorter one of two nested spans stays the shorter one, and spans of one length remain so. -/
theorem length_remap_le_iff (hs : s.Proper) (ht : t.Proper) (hnested : s.contains t ∨ t.contains s) :
    ((insert offset text).remap s).length ≤ ((insert offset text).remap t).length ↔
      s.length ≤ t.length := by
  have hs' : s.start < s.stop := hs
  have ht' : t.start < t.stop := ht
  rw [Span.contains_iff, Span.contains_iff] at hnested
  rw [remap_insert hs, remap_insert ht]
  simp only [Span.length]
  split_ifs <;> omega

theorem nestedOrDisjoint_remap (hs : s.Proper) (ht : t.Proper) (h : s.NestedOrDisjoint t) :
    ((insert offset text).remap s).NestedOrDisjoint ((insert offset text).remap t) := by
  rcases h with h | h | h | h
  · exact Or.inl ((contains_remap hs ht).trans h)
  · exact Or.inr (Or.inl ((contains_remap ht hs).trans h))
  · refine Or.inr (Or.inr (Or.inl ?_))
    rw [remap_insert hs, remap_insert ht]
    simp only
    split_ifs <;> omega
  · refine Or.inr (Or.inr (Or.inr ?_))
    rw [remap_insert hs, remap_insert ht]
    simp only
    split_ifs <;> omega

end

end TextEdit
end CaseUnion
