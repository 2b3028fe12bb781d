import CaseUnion.Path

/-!
# The order of paths

Of two paths with different components one precedes the other, and a path that precedes another
precedes whatever comes behind it.
-/

namespace CaseUnion.Path

namespace Step

variable {a b c : Step}

theorem precedes_iff :
    a.precedes b ↔ a.rank < b.rank ∨ ∃ x y, a = name x ∧ b = name y ∧ x < y := by
  cases a <;> cases b <;> simp [precedes, rank]

theorem not_precedes_self (a : Step) : ¬ a.precedes a := by
  rw [precedes_iff]
  rintro (hrank | ⟨x, y, rfl, heq, hlt⟩)
  · exact Nat.lt_irrefl _ hrank
  · cases heq
    exact String.lt_irrefl x hlt

theorem precedes_trans (hab : a.precedes b) (hbc : b.precedes c) : a.precedes c := by
  rw [precedes_iff] at hab hbc ⊢
  rcases hab with hrank | ⟨x, y, rfl, rfl, hlt⟩
  · rcases hbc with hrank' | ⟨y, z, rfl, rfl, _⟩
    · exact Or.inl (Nat.lt_trans hrank hrank')
    · exact Or.inl hrank
  · rcases hbc with hrank' | ⟨y', z, heq, rfl, hlt'⟩
    · exact Or.inl hrank'
    · cases heq
      exact Or.inr ⟨x, z, rfl, rfl, String.lt_trans hlt hlt'⟩

theorem precedes_total (h : a ≠ b) : a.precedes b ∨ b.precedes a := by
  rw [precedes_iff, precedes_iff]
  rcases Nat.lt_trichotomy a.rank b.rank with hlt | heq | hlt
  · exact Or.inl (Or.inl hlt)
  · -- components of one rank are equal or both names
    have hnames : ∃ x y, a = name x ∧ b = name y := by
      cases a <;> cases b <;> simp_all [rank]
    obtain ⟨x, y, rfl, rfl⟩ := hnames
    have hne : x ≠ y := fun hxy => h (congrArg name hxy)
    by_cases hxy : x < y
    · exact Or.inl (Or.inr ⟨x, y, rfl, rfl, hxy⟩)
    · by_cases hyx : y < x
      · exact Or.inr (Or.inr ⟨y, x, rfl, rfl, hyx⟩)
      · exact absurd (String.le_antisymm (String.not_lt.1 hyx) (String.not_lt.1 hxy)) hne
  · exact Or.inr (Or.inl hlt)

end Step

theorem stepsPrecede_cons {a b : Step} {as bs : List Step} :
    stepsPrecede (a :: as) (b :: bs) ↔ a.precedes b ∨ a = b ∧ stepsPrecede as bs := by
  rw [stepsPrecede, Bool.or_eq_true, Bool.and_eq_true, beq_iff_eq]

theorem not_stepsPrecede_nil (as : List Step) : ¬ stepsPrecede as [] := by
  cases as <;> simp [stepsPrecede]

theorem not_stepsPrecede_self (as : List Step) : ¬ stepsPrecede as as := by
  induction as with
  | nil => exact not_stepsPrecede_nil []
  | cons a as ih =>
    rw [stepsPrecede_cons]
    rintro (h | ⟨_, h⟩)
    · exact Step.not_precedes_self a h
    · exact ih h

theorem stepsPrecede_trans {as bs cs : List Step} (hab : stepsPrecede as bs)
    (hbc : stepsPrecede bs cs) : stepsPrecede as cs := by
  induction as generalizing bs cs with
  | nil =>
    cases cs with
    | nil => exact absurd hbc (not_stepsPrecede_nil bs)
    | cons c cs => rfl
  | cons a as ih =>
    cases bs with
    | nil => exact absurd hab (not_stepsPrecede_nil _)
    | cons b bs =>
      cases cs with
      | nil => exact absurd hbc (not_stepsPrecede_nil _)
      | cons c cs =>
        rw [stepsPrecede_cons] at hab hbc ⊢
        rcases hab with hab | ⟨rfl, hab⟩
        · rcases hbc with hbc | ⟨rfl, _⟩
          · exact Or.inl (Step.precedes_trans hab hbc)
          · exact Or.inl hab
        · rcases hbc with hbc | ⟨rfl, hbc⟩
          · exact Or.inl hbc
          · exact Or.inr ⟨rfl, ih hab hbc⟩

theorem stepsPrecede_total {as bs : List Step} (h : as ≠ bs) :
    stepsPrecede as bs ∨ stepsPrecede bs as := by
  induction as generalizing bs with
  | nil =>
    cases bs with
    | nil => exact absurd rfl h
    | cons b bs => exact Or.inl rfl
  | cons a as ih =>
    cases bs with
    | nil => exact Or.inr rfl
    | cons b bs =>
      rw [stepsPrecede_cons, stepsPrecede_cons]
      by_cases hab : a = b
      · subst hab
        have hrest : as ≠ bs := fun heq => h (congrArg (a :: ·) heq)
        exact (ih hrest).imp (fun hlt => Or.inr ⟨rfl, hlt⟩) (fun hlt => Or.inr ⟨rfl, hlt⟩)
      · exact (Step.precedes_total hab).imp Or.inl Or.inl

theorem same_iff {p q : String} : same p q ↔ steps p = steps q := by
  rw [same, beq_iff_eq]

variable {p q r : String}

theorem not_precedes_of_same (h : same p q) : ¬ precedes p q := by
  rw [precedes, same_iff.1 h]
  exact not_stepsPrecede_self _

theorem precedes_trans (hpq : precedes p q) (hqr : precedes q r) : precedes p r :=
  stepsPrecede_trans hpq hqr

theorem precedes_of_same (hpq : precedes p q) (hqr : same q r) : precedes p r := by
  rwa [precedes, ← same_iff.1 hqr]

theorem precedes_of_not_precedes (hsame : ¬ same p q) (h : ¬ precedes p q) : precedes q p :=
  (stepsPrecede_total fun heq => hsame (same_iff.2 heq)).resolve_left h

end CaseUnion.Path
