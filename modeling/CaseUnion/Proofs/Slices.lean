import CaseUnion.TextEdit

/-!
# Slices of a text

`IsSlice s cs x` says that the span `s` denotes the part `x` of a text, by a division of the text
into what stands before, inside and after. `slice?_eq_some_iff` and `fits_iff_isSome_slice?` tie the
relation to `Text.slice?`: a span denotes a part exactly when it fits the text, that is when it is
ordered, in range, and has both ends between characters.

A part of the text in front of a division point, or behind it, does not depend on what stands on
the other side (`isSlice_append_left`, `isSlice_append_right`), and slices that touch can be joined
(`IsSlice.append`). An edit changes what stands between two such points, so these facts say what
becomes of every slice.
-/

namespace CaseUnion.Text

theorem byteLength_toList (s : String) : byteLength s.toList = s.utf8ByteSize := by
  have h : ∀ cs : List Char, byteLength cs = (String.ofList cs).utf8ByteSize := by
    intro cs
    induction cs with
    | nil => rfl
    | cons c cs ih =>
      rw [byteLength, ih, String.ofList_cons]
      simp
  rw [h, String.ofList_toList]

theorem eq_nil_of_byteLength_eq_zero {cs : List Char} (h : byteLength cs = 0) : cs = [] := by
  cases cs with
  | nil => rfl
  | cons c cs =>
    have hc := c.utf8Size_pos
    simp only [byteLength] at h
    omega

theorem exists_eq_append_of_byteLength_le {a b c d : List Char} (h : a ++ b = c ++ d)
    (hle : byteLength a ≤ byteLength c) : ∃ m, c = a ++ m ∧ b = m ++ d := by
  rcases List.append_eq_append_iff.1 h with ⟨m, hc, hb⟩ | ⟨m, ha, hd⟩
  · exact ⟨m, hc, hb⟩
  · have hm : m = [] := by
      apply eq_nil_of_byteLength_eq_zero
      rw [ha, byteLength_append] at hle
      omega
    subst hm
    exact ⟨[], by simpa using ha.symm, by simpa using hd.symm⟩

theorem append_inj_of_byteLength_eq {a b c d : List Char} (h : a ++ b = c ++ d)
    (heq : byteLength a = byteLength c) : a = c ∧ b = d := by
  obtain ⟨m, hc, hb⟩ := exists_eq_append_of_byteLength_le h (Nat.le_of_eq heq)
  have hm : m = [] := by
    apply eq_nil_of_byteLength_eq_zero
    rw [hc, byteLength_append] at heq
    omega
  subst hm
  exact ⟨by simpa using hc.symm, by simpa using hb⟩

/-- The byte offset `n` falls between two characters or at an end of the text. -/
def IsBoundary (n : Nat) (cs : List Char) : Prop :=
  ∃ a b, cs = a ++ b ∧ byteLength a = n

theorem IsBoundary.le {n : Nat} {cs : List Char} (h : IsBoundary n cs) : n ≤ byteLength cs := by
  obtain ⟨a, b, rfl, rfl⟩ := h
  rw [byteLength_append]
  exact Nat.le_add_right _ _

/-- A span fits a text when it is ordered, in range, and has both ends on boundaries. -/
structure Fits (s : Span) (text : String) : Prop where
  ordered : s.start ≤ s.stop
  inRange : s.stop ≤ text.utf8ByteSize
  start : IsBoundary s.start text.toList
  stop : IsBoundary s.stop text.toList

theorem splitAtByte?_eq_some_iff {n : Nat} {cs a b : List Char} :
    splitAtByte? n cs = some (a, b) ↔ cs = a ++ b ∧ byteLength a = n := by
  constructor
  · intro h
    exact ⟨(splitAtByte?_append h).symm, byteLength_of_splitAtByte? h⟩
  · rintro ⟨rfl, rfl⟩
    induction a with
    | nil => simp [byteLength, splitAtByte?]
    | cons c a ih =>
      have hc := c.utf8Size_pos
      obtain ⟨k, hk⟩ : ∃ k, byteLength (c :: a) = k + 1 :=
        ⟨byteLength (c :: a) - 1, by simp only [byteLength]; omega⟩
      have hle : c.utf8Size ≤ k + 1 := by simp only [byteLength] at hk; omega
      have hrest : k + 1 - c.utf8Size = byteLength a := by simp only [byteLength] at hk; omega
      rw [hk, List.cons_append, splitAtByte?, if_pos hle, hrest, ih]
      rfl

/-- The span `s` denotes the part `x` of a text. -/
def IsSlice (s : Span) (cs x : List Char) : Prop :=
  ∃ a b, cs = a ++ x ++ b ∧ byteLength a = s.start ∧ s.start + byteLength x = s.stop

theorem cut?_eq_some_iff {s : Span} {cs : List Char} {c : Cut} :
    cut? s cs = some c ↔ cs = c.before ++ c.inside ++ c.after ∧ byteLength c.before = s.start ∧
      s.start + byteLength c.inside = s.stop := by
  obtain ⟨before, inside, after⟩ := c
  constructor
  · intro h
    simp only [cut?] at h
    split at h
    · simp only [Option.bind_eq_bind, Option.bind_eq_some_iff, Option.some.injEq, Prod.exists] at h
      obtain ⟨upTo, after', hstop, before', inside', hstart, heq⟩ := h
      obtain ⟨rfl, hlen⟩ := splitAtByte?_eq_some_iff.1 hstop
      obtain ⟨rfl, hlen'⟩ := splitAtByte?_eq_some_iff.1 hstart
      cases heq
      rw [byteLength_append] at hlen
      exact ⟨rfl, hlen', by simp only; omega⟩
    · cases h
  · rintro ⟨rfl, hstart, hstop⟩
    simp only at hstart hstop
    have hsplit : splitAtByte? s.stop (before ++ inside ++ after) = some (before ++ inside, after) :=
      splitAtByte?_eq_some_iff.2 ⟨rfl, by rw [byteLength_append]; omega⟩
    have hsplit' : splitAtByte? s.start (before ++ inside) = some (before, inside) :=
      splitAtByte?_eq_some_iff.2 ⟨rfl, hstart⟩
    have hle : s.start ≤ s.stop := by omega
    rw [cut?, if_pos hle, hsplit]
    simp [hsplit']

theorem slice?_eq_some_iff {s : Span} {text x : String} :
    slice? s text = some x ↔ IsSlice s text.toList x.toList := by
  constructor
  · intro h
    obtain ⟨c, hcut, rfl⟩ := Option.map_eq_some_iff.1 h
    obtain ⟨htext, hstart, hstop⟩ := cut?_eq_some_iff.1 hcut
    rw [String.toList_ofList]
    exact ⟨c.before, c.after, htext, hstart, hstop⟩
  · rintro ⟨a, b, htext, hstart, hstop⟩
    have hcut : cut? s text.toList = some ⟨a, x.toList, b⟩ :=
      cut?_eq_some_iff.2 ⟨htext, hstart, hstop⟩
    simp [slice?, hcut]

theorem IsSlice.slice?_eq {s : Span} {text : String} {x : List Char} (h : IsSlice s text.toList x) :
    slice? s text = some (String.ofList x) :=
  slice?_eq_some_iff.2 (by rwa [String.toList_ofList])

theorem IsSlice.stop_eq {s : Span} {cs x : List Char} (h : IsSlice s cs x) :
    s.start + byteLength x = s.stop := by
  obtain ⟨_, _, _, _, hstop⟩ := h
  exact hstop

theorem IsSlice.unique {s : Span} {cs x y : List Char} (hx : IsSlice s cs x)
    (hy : IsSlice s cs y) : x = y := by
  obtain ⟨a, b, hcs, ha, hstop⟩ := hx
  obtain ⟨c, d, hcs', hc, hstop'⟩ := hy
  rw [hcs, List.append_assoc, List.append_assoc] at hcs'
  obtain ⟨rfl, hrest⟩ := append_inj_of_byteLength_eq hcs' (ha.trans hc.symm)
  exact (append_inj_of_byteLength_eq hrest (by omega)).1

/-- There is a part of the text between any two boundaries. -/
theorem exists_isSlice_iff {i j : Nat} {cs : List Char} :
    (∃ x, IsSlice ⟨i, j⟩ cs x) ↔ i ≤ j ∧ IsBoundary i cs ∧ IsBoundary j cs := by
  constructor
  · rintro ⟨x, a, b, rfl, hstart, hstop⟩
    simp only at hstart hstop
    refine ⟨by omega, ⟨a, x ++ b, by rw [List.append_assoc], hstart⟩, a ++ x, b, rfl, ?_⟩
    rw [byteLength_append]
    omega
  · rintro ⟨hle, ⟨a, b, rfl, ha⟩, c, d, hcs, hc⟩
    obtain ⟨m, rfl, rfl⟩ := exists_eq_append_of_byteLength_le hcs (by omega)
    rw [byteLength_append] at hc
    exact ⟨m, a, d, by rw [List.append_assoc], ha, by simp only; omega⟩

theorem fits_iff_exists_isSlice {s : Span} {text : String} :
    Fits s text ↔ ∃ x, IsSlice s text.toList x := by
  constructor
  · intro h
    exact exists_isSlice_iff.2 ⟨h.ordered, h.start, h.stop⟩
  · intro h
    obtain ⟨hle, hstart, hstop⟩ := exists_isSlice_iff.1 h
    exact ⟨hle, byteLength_toList text ▸ hstop.le, hstart, hstop⟩

theorem fits_iff_isSome_slice? {s : Span} {text : String} : Fits s text ↔ (slice? s text).isSome := by
  rw [fits_iff_exists_isSlice, Option.isSome_iff_exists]
  constructor
  · rintro ⟨x, hx⟩
    exact ⟨String.ofList x, hx.slice?_eq⟩
  · rintro ⟨x, hx⟩
    exact ⟨x.toList, slice?_eq_some_iff.1 hx⟩

theorem isSlice_nil_iff {n : Nat} {cs : List Char} : IsSlice ⟨n, n⟩ cs [] ↔ IsBoundary n cs := by
  constructor
  · rintro ⟨a, b, rfl, ha, _⟩
    exact ⟨a, b, by simp, ha⟩
  · rintro ⟨a, b, rfl, ha⟩
    exact ⟨a, b, by simp, ha, by simp [byteLength]⟩

theorem IsSlice.append {i j k : Nat} {cs x y : List Char} (hx : IsSlice ⟨i, j⟩ cs x)
    (hy : IsSlice ⟨j, k⟩ cs y) : IsSlice ⟨i, k⟩ cs (x ++ y) := by
  obtain ⟨a, b, hcs, ha, hj⟩ := hx
  obtain ⟨c, d, hcs', hc, hk⟩ := hy
  simp only at ha hj hc hk
  have hlen : byteLength (a ++ x) = byteLength c := by rw [byteLength_append]; omega
  obtain ⟨rfl, rfl⟩ := append_inj_of_byteLength_eq
    (hcs.symm.trans (hcs'.trans (List.append_assoc _ _ _))) hlen
  refine ⟨a, d, by rw [hcs]; simp only [List.append_assoc], ha, ?_⟩
  simp only [byteLength_append]
  omega

/-- A slice can be divided at any boundary inside of it. -/
theorem IsSlice.exists_append {i j k : Nat} {cs z : List Char} (hz : IsSlice ⟨i, k⟩ cs z)
    (hj : IsBoundary j cs) (hij : i ≤ j) (hjk : j ≤ k) :
    ∃ x y, IsSlice ⟨i, j⟩ cs x ∧ IsSlice ⟨j, k⟩ cs y ∧ z = x ++ y := by
  obtain ⟨_, hi, hk⟩ := exists_isSlice_iff.1 ⟨z, hz⟩
  obtain ⟨x, hx⟩ := exists_isSlice_iff.2 ⟨hij, hi, hj⟩
  obtain ⟨y, hy⟩ := exists_isSlice_iff.2 ⟨hjk, hj, hk⟩
  exact ⟨x, y, hx, hy, hz.unique (hx.append hy)⟩

theorem isSlice_append_left {s : Span} {front back x : List Char}
    (h : s.stop ≤ byteLength front) : IsSlice s (front ++ back) x ↔ IsSlice s front x := by
  constructor
  · rintro ⟨a, b, hcs, ha, hstop⟩
    have hle : byteLength (a ++ x) ≤ byteLength front := by rw [byteLength_append]; omega
    obtain ⟨m, hfront, _⟩ := exists_eq_append_of_byteLength_le hcs.symm hle
    exact ⟨a, m, hfront, ha, hstop⟩
  · rintro ⟨a, b, rfl, ha, hstop⟩
    exact ⟨a, b ++ back, by simp only [List.append_assoc], ha, hstop⟩

theorem isSlice_append_right (front back : List Char) {i j : Nat} {x : List Char} :
    IsSlice ⟨byteLength front + i, byteLength front + j⟩ (front ++ back) x ↔
      IsSlice ⟨i, j⟩ back x := by
  constructor
  · rintro ⟨a, b, hcs, ha, hstop⟩
    simp only at ha hstop
    rw [List.append_assoc] at hcs
    obtain ⟨m, rfl, rfl⟩ := exists_eq_append_of_byteLength_le hcs (by omega)
    rw [byteLength_append] at ha
    refine ⟨m, b, by rw [List.append_assoc], ?_, ?_⟩ <;> simp only <;> omega
  · rintro ⟨a, b, rfl, ha, hstop⟩
    simp only at ha hstop
    refine ⟨front ++ a, b, by simp only [List.append_assoc], ?_, ?_⟩
    · rw [byteLength_append, ha]
    · simp only
      omega

end CaseUnion.Text
