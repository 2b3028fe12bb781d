import CaseUnion.Proofs.Slices

/-!
# Texts with insertions

`weave inserted` puts a text in front of every character, given by the offset of the character. One
of these texts can be put in place beforehand, if the others keep their distance to the characters
behind them (`weave_insert`). Texts inserted one after the other so end up as if they were inserted
all at once.
-/

namespace CaseUnion.Text

/-- The characters, the first of them at the offset `n`, each behind what is inserted in front of
it. -/
def weave (inserted : Nat → List Char) (n : Nat) : List Char → List Char
  | [] => []
  | c :: cs => inserted n ++ c :: weave inserted (n + c.utf8Size) cs

section
variable {f g : Nat → List Char}

theorem weave_append (f : Nat → List Char) (n : Nat) (xs ys : List Char) :
    weave f n (xs ++ ys) = weave f n xs ++ weave f (n + byteLength xs) ys := by
  induction xs generalizing n with
  | nil => rfl
  | cons c xs ih =>
    rw [List.cons_append, weave, weave, ih, byteLength, Nat.add_assoc, List.append_assoc,
      List.cons_append]

theorem weave_shift {n k : Nat} {cs : List Char}
    (h : ∀ m, n ≤ m → m < n + byteLength cs → f (m + k) = g m) :
    weave f (n + k) cs = weave g n cs := by
  induction cs generalizing n with
  | nil => rfl
  | cons c cs ih =>
    have hc := c.utf8Size_pos
    have hrest : weave f (n + c.utf8Size + k) cs = weave g (n + c.utf8Size) cs := by
      apply ih
      intro m hle hlt
      refine h m (by omega) ?_
      rw [byteLength]
      omega
    have hfirst : f (n + k) = g n := by
      refine h n (Nat.le_refl n) ?_
      rw [byteLength]
      omega
    rw [weave, weave, hfirst, ← hrest]
    congr 3
    omega

theorem weave_eq_self {n : Nat} {cs : List Char}
    (h : ∀ m, n ≤ m → m < n + byteLength cs → f m = []) : weave f n cs = cs := by
  induction cs generalizing n with
  | nil => rfl
  | cons c cs ih =>
    have hc := c.utf8Size_pos
    rw [byteLength] at h
    rw [weave, h n (Nat.le_refl n) (by omega),
      ih fun m hle hlt => h m (by omega) (by omega), List.nil_append]

/-- The text `inside` is put in place in front of `c`; `g` says what is inserted besides it. -/
theorem weave_insert {before inside after : List Char} {c : Char}
    (hbefore : ∀ m < byteLength before, g m = f m)
    (hinside : ∀ m, byteLength before ≤ m → m ≤ byteLength before + byteLength inside → g m = [])
    (hinserted : f (byteLength before) = inside)
    (hafter : ∀ m, byteLength before < m → g (m + byteLength inside) = f m) :
    weave g 0 (before ++ (inside ++ c :: after)) = weave f 0 (before ++ c :: after) := by
  have hc := c.utf8Size_pos
  have hfront : weave g 0 before = weave f 0 before := by
    refine weave_shift (k := 0) fun m _ hlt => ?_
    exact hbefore m (by omega)
  have hmiddle : weave g (byteLength before) inside = inside :=
    weave_eq_self fun m hle hlt => hinside m hle (Nat.le_of_lt hlt)
  have hback : weave g (byteLength before + c.utf8Size + byteLength inside) after =
      weave f (byteLength before + c.utf8Size) after := by
    refine weave_shift fun m hle _ => ?_
    exact hafter m (by omega)
  have hempty : g (byteLength before + byteLength inside) = [] :=
    hinside _ (Nat.le_add_right _ _) (Nat.le_refl _)
  have hoffset : byteLength before + byteLength inside + c.utf8Size =
      byteLength before + c.utf8Size + byteLength inside := by omega
  rw [weave_append, weave_append, weave_append, weave, weave, Nat.zero_add, hoffset, hfront,
    hmiddle, hempty, hinserted, hback, List.nil_append]

end

end CaseUnion.Text
