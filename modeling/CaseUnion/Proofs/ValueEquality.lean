import CaseUnion.Proofs.Dispatching

/-!
# Equality of values

Two values are equal if they are the same but for the lists of cases that union values carry along
(`Value.same_iff`), so equality is an equivalence. The data that the hash is taken over tells equal
values from others, whatever follows it (`Value.append_hashPieces_inj`). Of constructed values those
are equal that have one case and equal arguments.
-/

namespace CaseUnion

mutual

/-- A value without the lists of cases in it. -/
def Value.withoutCases : Value → Value
  | .bool value => .bool value
  | .int value => .int value
  | .double value => .double value
  | .text value => .text value
  | .tuple items => .tuple (Value.allWithoutCases items)
  | .union value => .union value.withoutCases

def UnionValue.withoutCases : UnionValue → UnionValue
  | ⟨shape, tag, none⟩ => ⟨{ shape with cases := [] }, tag, none⟩
  | ⟨shape, tag, some items⟩ =>
    ⟨{ shape with cases := [] }, tag, some (Value.allWithoutCases items)⟩

def Value.allWithoutCases : List Value → List Value
  | [] => []
  | v :: rest => v.withoutCases :: Value.allWithoutCases rest

end

/-! ### Equality -/

mutual

theorem Value.same_iff : ∀ v w : Value, v.same w ↔ v.withoutCases = w.withoutCases
  | .bool a, w => by cases w <;> simp [Value.same, Value.withoutCases]
  | .int a, w => by cases w <;> simp [Value.same, Value.withoutCases]
  | .double a, w => by cases w <;> simp [Value.same, Value.withoutCases]
  | .text a, w => by cases w <;> simp [Value.same, Value.withoutCases]
  | .tuple as, w => by
    cases w with
    | tuple bs =>
      rw [Value.same, Value.sameAll_iff as bs, Value.withoutCases, Value.withoutCases,
        Value.tuple.injEq]
    | _ => simp [Value.same, Value.withoutCases]
  | .union a, w => by
    cases w with
    | union b =>
      rw [Value.same, UnionValue.same_iff a b, Value.withoutCases, Value.withoutCases,
        Value.union.injEq]
    | _ => simp [Value.same, Value.withoutCases]

theorem UnionValue.same_iff : ∀ v w : UnionValue, v.same w ↔ v.withoutCases = w.withoutCases
  | ⟨shape, tag, none⟩, ⟨shape', tag', payload'⟩ => by
    cases payload' <;> simp [UnionValue.same, UnionValue.withoutCases]
  | ⟨shape, tag, some as⟩, ⟨shape', tag', payload'⟩ => by
    cases payload' with
    | none => simp [UnionValue.same, UnionValue.withoutCases]
    | some bs => simp [UnionValue.same, UnionValue.withoutCases, Value.sameAll_iff as bs, and_assoc]

theorem Value.sameAll_iff : ∀ as bs : List Value,
    Value.sameAll as bs ↔ Value.allWithoutCases as = Value.allWithoutCases bs
  | [], bs => by cases bs <;> simp [Value.sameAll, Value.allWithoutCases]
  | a :: as, bs => by
    cases bs with
    | nil => simp [Value.sameAll, Value.allWithoutCases]
    | cons b bs =>
      rw [Value.sameAll, Bool.and_eq_true, Value.same_iff a b, Value.sameAll_iff as bs,
        Value.allWithoutCases, Value.allWithoutCases, List.cons.injEq]

end

theorem UnionValue.tag_eq_of_same {v w : UnionValue} (h : v.same w) : v.tag = w.tag := by
  have htag (x : UnionValue) : x.withoutCases.tag = x.tag := by
    obtain ⟨_, _, _ | _⟩ := x <;> rfl
  rw [← htag v, ← htag w, (same_iff v w).1 h]

theorem Value.sameAll_iff_forall₂ {as bs : List Value} :
    Value.sameAll as bs ↔ List.Forall₂ (fun a b => a.same b) as bs := by
  induction as generalizing bs with
  | nil => cases bs <;> simp [Value.sameAll]
  | cons a as ih =>
    cases bs with
    | nil => simp [Value.sameAll]
    | cons b bs => rw [Value.sameAll, Bool.and_eq_true, ih, List.forall₂_cons]

theorem Value.equivalence_same : Equivalence fun v w : Value => v.same w where
  refl v := (same_iff v v).2 rfl
  symm h := (same_iff _ _).2 ((same_iff _ _).1 h).symm
  trans h h' := (same_iff _ _).2 (((same_iff _ _).1 h).trans ((same_iff _ _).1 h'))

/-! ### Hashed data -/

mutual

/-- No value's data is the beginning of the data of another one. -/
theorem Value.append_hashPieces_inj : ∀ (v w : Value) (rest rest' : List HashPiece),
    v.hashPieces ++ rest = w.hashPieces ++ rest' ↔
      v.withoutCases = w.withoutCases ∧ rest = rest'
  | .bool a, w, _, _ => by cases w <;> simp [Value.hashPieces, Value.withoutCases]
  | .int a, w, _, _ => by cases w <;> simp [Value.hashPieces, Value.withoutCases]
  | .double ⟨bits⟩, w, _, _ => by
    cases w with
    | double b =>
      obtain ⟨bits'⟩ := b
      simp [Value.hashPieces, Value.withoutCases]
    | _ => simp [Value.hashPieces, Value.withoutCases]
  | .text a, w, _, _ => by cases w <;> simp [Value.hashPieces, Value.withoutCases]
  | .tuple as, w, rest, rest' => by
    cases w with
    | tuple bs =>
      simpa [Value.hashPieces, Value.withoutCases] using
        Value.append_hashPiecesAll_inj as bs rest rest'
    | _ => simp [Value.hashPieces, Value.withoutCases]
  | .union a, w, rest, rest' => by
    cases w with
    | union b =>
      simpa [Value.hashPieces, Value.withoutCases] using
        UnionValue.append_hashPieces_inj a b rest rest'
    | _ => simp [Value.hashPieces, Value.withoutCases]

theorem UnionValue.append_hashPieces_inj : ∀ (v w : UnionValue) (rest rest' : List HashPiece),
    v.hashPieces ++ rest = w.hashPieces ++ rest' ↔
      v.withoutCases = w.withoutCases ∧ rest = rest'
  | ⟨shape, tag, none⟩, ⟨shape', tag', payload'⟩, _, _ => by
    cases payload' <;> simp [UnionValue.hashPieces, UnionValue.withoutCases, and_assoc]
  | ⟨shape, tag, some as⟩, ⟨shape', tag', payload'⟩, rest, rest' => by
    cases payload' with
    | none => simp [UnionValue.hashPieces, UnionValue.withoutCases]
    | some bs =>
      have hitems := Value.append_hashPiecesAll_inj as bs rest rest'
      simp [UnionValue.hashPieces, UnionValue.withoutCases, hitems, and_assoc]

/-- The number of values stands in front of their data, so it is known to be the same. -/
theorem Value.append_hashPiecesAll_inj : ∀ (as bs : List Value) (rest rest' : List HashPiece),
    (as.length = bs.length ∧
        Value.hashPiecesAll as ++ rest = Value.hashPiecesAll bs ++ rest') ↔
      Value.allWithoutCases as = Value.allWithoutCases bs ∧ rest = rest'
  | [], bs, _, _ => by cases bs <;> simp [Value.hashPiecesAll, Value.allWithoutCases]
  | a :: as, bs, rest, rest' => by
    cases bs with
    | nil => simp [Value.hashPiecesAll, Value.allWithoutCases]
    | cons b bs =>
      have hrest := Value.append_hashPiecesAll_inj as bs rest rest'
      simp only [Value.hashPiecesAll, Value.allWithoutCases, List.length_cons,
        Nat.add_right_cancel_iff, List.append_assoc, Value.append_hashPieces_inj a b,
        List.cons.injEq]
      rw [and_left_comm, hrest, and_assoc]

end

theorem Value.same_iff_hashPieces_eq (v w : Value) : v.same w ↔ v.hashPieces = w.hashPieces := by
  have hpieces := Value.append_hashPieces_inj v w [] []
  rw [List.append_nil, List.append_nil, and_iff_left rfl] at hpieces
  rw [Value.same_iff, hpieces]

/-! ### Constructed values -/

/-- The tag tells the cases of a union apart, and the payload holds the arguments. -/
theorem Shape.same_iff_of_construct {s : Shape} {c d : String} {a b : List Value}
    {v w : UnionValue} (hv : s.construct c a = .ok v) (hw : s.construct d b = .ok w) :
    v.same w ↔ c = d ∧ List.Forall₂ (fun x y => x.same y) a b := by
  obtain ⟨tag, hc, ha, rfl⟩ := construct_eq_ok_iff.1 hv
  obtain ⟨tag', hd, hb, rfl⟩ := construct_eq_ok_iff.1 hw
  by_cases htag : tag = tag'
  · subst htag
    have hname : c = d := position?_injective hc hd
    by_cases hzero : s.arity tag = 0
    · have hanil : a = [] := List.eq_nil_of_length_eq_zero (ha.trans hzero)
      have hbnil : b = [] := List.eq_nil_of_length_eq_zero (hb.trans hzero)
      simp only [if_pos hzero]
      simp [UnionValue.same, hname, hanil, hbnil]
    · simp only [if_neg hzero]
      simp [UnionValue.same, hname, Value.sameAll_iff_forall₂]
  · have hname : c ≠ d := by
      rintro rfl
      exact htag (Option.some.inj (hc.symm.trans hd))
    refine iff_of_false (fun h => htag ?_) fun h => hname h.1
    exact UnionValue.tag_eq_of_same h

/-- Values are equal exactly if they are built alike, and exactly then one hash is taken of them.
Constructed values are equal exactly if their cases are the same and their arguments are equal. -/
theorem Value.equality_is_structural :
    (∀ v w : Value, v.same w ↔ v.withoutCases = w.withoutCases) ∧
      (Equivalence fun v w : Value => v.same w) ∧
      (∀ v w : Value, v.same w ↔ v.hashPieces = w.hashPieces) ∧
      ∀ (u : UnionType) (c d : String) (a b : List Value) (v w : UnionValue),
        (Shape.ofUnion u).construct c a = .ok v → (Shape.ofUnion u).construct d b = .ok w →
          (v.same w ↔ c = d ∧ List.Forall₂ (fun x y => x.same y) a b) :=
  ⟨Value.same_iff, Value.equivalence_same, Value.same_iff_hashPieces_eq,
    fun _ _ _ _ _ _ _ => Shape.same_iff_of_construct⟩

/-- The arguments are no number and a zero. -/
theorem Value.equality_is_structural_doubles :
    ∃ v w x, (Shape.ofUnion .emptyOrPair).construct "Pair" [.double .nan, .double ⟨0⟩] = .ok v ∧
      (Shape.ofUnion .emptyOrPair).construct "Pair" [.double .nan, .double ⟨0⟩] = .ok w ∧
      (Shape.ofUnion .emptyOrPair).construct "Pair" [.double .nan, .double ⟨1⟩] = .ok x ∧
      v.same w ∧ ¬ v.same x := by
  let pair (bits : UInt64) : UnionValue :=
    ⟨Shape.ofUnion .emptyOrPair, 1, some [.double .nan, .double ⟨bits⟩]⟩
  have hpair (bits : UInt64) : (Shape.ofUnion .emptyOrPair).construct "Pair"
      [.double .nan, .double ⟨bits⟩] = .ok (pair bits) := rfl
  have hsame (bits bits' : UInt64) := Value.equality_is_structural.2.2.2 .emptyOrPair "Pair" "Pair"
    _ _ _ _ (hpair bits) (hpair bits')
  refine ⟨pair 0, pair 0, pair 1, hpair 0, hpair 0, hpair 1, ?_, ?_⟩
  · exact (hsame 0 0).2 ⟨rfl, .cons rfl (.cons rfl .nil)⟩
  · intro h
    cases ((hsame 0 1).1 h).2 with
    | cons _ hrest =>
      cases hrest with
      | cons hzero _ => cases hzero

end CaseUnion
