import Mathlib.Data.List.TakeWhile
import CaseUnion.CallCompletion
import CaseUnion.Proofs.SpanInsertion

/-!
# The closing parenthesis of a call

`ClosesAt s cs n` says that the part denoted by `s` ends in a closing parenthesis at the offset `n`,
up to white space; a completion inserts its arguments there (`completionEdit?_eq_some_iff`).

Text inserted in front of some closing parenthesis moves every other one like the start of a span,
and it neither makes nor breaks one (`closesAt_remap_iff`). If the insertion falls inside of a part,
then the parenthesis behind it is not white space and keeps the end of the part from being trimmed
any further than before.
-/

namespace CaseUnion

namespace Text

theorem trimEnd_append_of_blank {y w : List Char} {c : Char} (hc : isBlank c = false)
    (hw : ∀ b ∈ w, isBlank b) : trimEnd (y ++ c :: w) = y ++ [c] := by
  have hdrop : (w.reverse ++ (c :: y.reverse)).dropWhile isBlank = c :: y.reverse := by
    rw [List.dropWhile_append_of_pos (fun b hb => hw b (List.mem_reverse.1 hb)),
      List.dropWhile_cons_of_neg (by simp [hc])]
  simp only [trimEnd, List.reverse_append, List.reverse_cons, List.append_assoc,
    List.singleton_append, hdrop, List.reverse_reverse]

theorem exists_trimEnd_append (cs : List Char) :
    ∃ w, cs = trimEnd cs ++ w ∧ ∀ b ∈ w, isBlank b := by
  refine ⟨(cs.reverse.takeWhile isBlank).reverse, ?_, ?_⟩
  · rw [trimEnd, ← List.reverse_append, List.takeWhile_append_dropWhile, List.reverse_reverse]
  · intro b hb
    exact List.mem_takeWhile_imp (List.mem_reverse.1 hb)

theorem isBlank_parenthesis : isBlank ')' = false := by decide

/-- The part that a span denotes ends in a closing parenthesis at a byte offset, up to white
space. -/
def ClosesAt (s : Span) (cs : List Char) (n : Nat) : Prop :=
  ∃ y w, IsSlice s cs (y ++ ')' :: w) ∧ (∀ b ∈ w, isBlank b) ∧ n = s.start + byteLength y

theorem ClosesAt.lt_stop {s : Span} {cs : List Char} {n : Nat} (h : ClosesAt s cs n) :
    n < s.stop := by
  obtain ⟨y, w, ⟨a, b, _, _, hstop⟩, _, rfl⟩ := h
  have hparenthesis := Char.utf8Size_pos ')'
  rw [byteLength_append, byteLength] at hstop
  omega

theorem ClosesAt.exists_eq {s : Span} {cs : List Char} {n : Nat} (h : ClosesAt s cs n) :
    ∃ a b, cs = a ++ ')' :: b ∧ byteLength a = n := by
  obtain ⟨y, w, ⟨a, b, rfl, ha, _⟩, _, rfl⟩ := h
  refine ⟨a ++ y, w ++ b, by simp, ?_⟩
  rw [byteLength_append, ha]

/-- What stands in front of a part that is not white space does not matter for its end. -/
theorem exists_eq_append_of_blank {z x y w : List Char} (hx : ')' ∈ x) (hw : ∀ b ∈ w, isBlank b)
    (h : z ++ x = y ++ ')' :: w) : ∃ y', y = z ++ y' ∧ x = y' ++ ')' :: w := by
  rcases List.append_eq_append_iff.1 h with ⟨m, hy, hx'⟩ | ⟨m, hz, hm⟩
  · exact ⟨m, hy, hx'⟩
  · cases m with
    | nil => exact ⟨[], by simpa using hz.symm, by simpa using hm.symm⟩
    | cons c m =>
      have hmem : ')' ∈ w := by
        rw [(List.cons.inj hm).2]
        exact List.mem_append_right m hx
      have hblank := hw _ hmem
      rw [isBlank_parenthesis] at hblank
      cases hblank

end Text

/-- The argument list of a completion as it is inserted into the text. -/
def completionText (call : Invocation) (appended : List Argument) : String :=
  let list := ", ".intercalate (appended.map (·.render))
  if call.arguments.isEmpty then list else ", " ++ list

theorem completionEdit?_eq_some_iff {d : Document} {call : Invocation} {appended : List Argument}
    {e : TextEdit} :
    completionEdit? d call appended = some e ↔
      ∃ n, Text.ClosesAt call.span d.text.toList n ∧ e = .insert n (completionText call appended) := by
  cases hslice : d.slice? call.span with
  | none =>
    simp only [completionEdit?, hslice, reduceCtorEq, false_iff, not_exists, not_and]
    rintro n ⟨y, w, hpart, _, _⟩ _
    have hsome := hpart.slice?_eq
    rw [Document.slice?, hsome] at hslice
    cases hslice
  | some text =>
    have hpart : Text.IsSlice call.span d.text.toList text.toList :=
      Text.slice?_eq_some_iff.1 hslice
    simp only [completionEdit?, hslice]
    constructor
    · intro h
      split at h
      · rename_i hlast
        cases h
        obtain ⟨w, htext, hw⟩ := Text.exists_trimEnd_append text.toList
        obtain ⟨y, hy⟩ := List.getLast?_eq_some_iff.1 hlast
        refine ⟨call.span.start + Text.byteLength y, ⟨y, w, ?_, hw, rfl⟩, ?_⟩
        · rw [hy, List.append_assoc] at htext
          rwa [htext] at hpart
        · rw [hy, Text.byteLength_append]
          rfl
      · cases h
    · rintro ⟨n, ⟨y, w, hpart', hw, rfl⟩, rfl⟩
      have htrim : Text.trimEnd text.toList = y ++ [')'] := by
        rw [hpart.unique hpart', Text.trimEnd_append_of_blank Text.isBlank_parenthesis hw]
      rw [htrim, if_pos (by simp), Text.byteLength_append]
      rfl

namespace TextEdit

open Text

section
variable {offset : Nat} {text old new : String} {before inside rest : List Char} {s : Span}

theorem Replaces.isBoundary_offset
    (h : (insert offset text).Replaces old new before inside rest) : IsBoundary offset old.toList :=
  h.fits.start

theorem Replaces.isSlice_around_iff
    (h : (insert offset text).Replaces old new before inside rest) (hstart : s.start < offset)
    (hstop : offset < s.stop) {z : List Char} :
    IsSlice ((insert offset text).remap s) new.toList z ↔
      ∃ x y, IsSlice ⟨s.start, offset⟩ old.toList x ∧ IsSlice ⟨offset, s.stop⟩ old.toList y ∧
        z = x ++ (text.toList ++ y) := by
  have hmoved : (insert offset text).remap s =
      ⟨s.start, s.stop - offset + (insert offset text).newStop⟩ :=
    remap_of_around (e := insert offset text) hstart.le hstop.le hstop hstart
  have hfront : ∀ {x : List Char},
      IsSlice ⟨s.start, offset⟩ new.toList x ↔ IsSlice ⟨s.start, offset⟩ old.toList x :=
    h.isSlice_before_iff (Nat.le_refl _)
  have hback : ∀ {y : List Char},
      IsSlice ⟨(insert offset text).newStop, s.stop - offset + (insert offset text).newStop⟩
        new.toList y ↔ IsSlice ⟨offset, s.stop⟩ old.toList y := by
    intro y
    have hiff := h.isSlice_behind_iff (i := offset) (j := s.stop) (x := y) (Nat.le_refl _) hstop.le
    simpa only [insert, Nat.sub_self, Nat.zero_add] using hiff
  rw [hmoved]
  constructor
  · intro hz
    obtain ⟨_, hboffset, hbtext⟩ := exists_isSlice_iff.1 ⟨_, h.isSlice_text⟩
    have hle : offset ≤ (insert offset text).newStop := Nat.le_add_right _ _
    obtain ⟨x, zs, hx, hzs, rfl⟩ := hz.exists_append hboffset hstart.le
      (hle.trans (Nat.le_add_left _ _))
    obtain ⟨t, y, ht, hy, rfl⟩ := hzs.exists_append hbtext hle (Nat.le_add_left _ _)
    exact ⟨x, y, hfront.1 hx, hback.1 hy, by rw [ht.unique h.isSlice_text]; rfl⟩
  · rintro ⟨x, y, hx, hy, rfl⟩
    exact (hfront.2 hx).append (h.isSlice_text.append (hback.2 hy))

theorem Replaces.mem_of_isSlice_behind
    (h : (insert offset text).Replaces old new before inside (')' :: rest)) {j : Nat}
    (hj : offset < j) {y : List Char} (hy : IsSlice ⟨offset, j⟩ old.toList y) : ')' ∈ y := by
  obtain ⟨a, b, hold, ha, hstop⟩ := hy
  have hstart : byteLength before = offset := h.start_eq
  have hempty : inside = [] := by
    have hstop' : offset + byteLength inside = offset := h.stop_eq
    exact eq_nil_of_byteLength_eq_zero (by omega)
  rw [h.old_eq, hempty, List.append_nil, List.append_assoc] at hold
  obtain ⟨_, hrest⟩ := append_inj_of_byteLength_eq hold (hstart.trans ha.symm)
  cases y with
  | nil =>
    simp only [byteLength] at hstop
    omega
  | cons c y =>
    rw [List.cons_append] at hrest
    rw [(List.cons.inj hrest).1]
    exact List.mem_cons_self

theorem Replaces.closesAt_remap_iff_of_before
    (h : (insert offset text).Replaces old new before inside rest) (hs : s.Proper)
    (hbefore : s.stop ≤ offset) {n : Nat} :
    ClosesAt ((insert offset text).remap s) new.toList n ↔
      ∃ m, ClosesAt s old.toList m ∧ n = (insert offset text).remapOffset m true := by
  have hlt : s.start < s.stop := hs
  have hmoved : (insert offset text).remap s = s :=
    remap_of_before (Nat.le_refl _) hlt.le hbefore (hlt.trans_le hbefore)
  have hiff : ClosesAt s new.toList n ↔ ClosesAt s old.toList n := by
    simp only [ClosesAt, h.isSlice_before_iff (s := s) hbefore]
  have hstay : ∀ {m}, ClosesAt s old.toList m → (insert offset text).remapOffset m true = m := by
    intro m hclose
    have hm := hclose.lt_stop
    rw [remapOffset_insert_start, if_neg (by omega)]
  rw [hmoved, hiff]
  constructor
  · intro hclose
    exact ⟨n, hclose, (hstay hclose).symm⟩
  · rintro ⟨m, hclose, rfl⟩
    rwa [hstay hclose]

theorem Replaces.closesAt_remap_iff_of_behind
    (h : (insert offset text).Replaces old new before inside rest) (hs : s.Proper)
    (hbehind : offset ≤ s.start) {n : Nat} :
    ClosesAt ((insert offset text).remap s) new.toList n ↔
      ∃ m, ClosesAt s old.toList m ∧ n = (insert offset text).remapOffset m true := by
  have hlt : s.start < s.stop := hs
  have hmoved : (insert offset text).remap s =
      ⟨s.start - offset + (insert offset text).newStop,
        s.stop - offset + (insert offset text).newStop⟩ :=
    remap_of_behind (Nat.le_refl _) hlt.le hbehind
  have hiff : ∀ {x}, IsSlice ((insert offset text).remap s) new.toList x ↔ IsSlice s old.toList x := by
    intro x
    rw [hmoved]
    exact h.isSlice_behind_iff (i := s.start) (j := s.stop) hbehind (hbehind.trans hlt.le)
  have hshift : ∀ k, ((insert offset text).remap s).start + k =
      (insert offset text).remapOffset (s.start + k) true := by
    intro k
    have hstart : ((insert offset text).remap s).start = s.start + byteLength text.toList := by
      rw [remap_insert hs, if_pos hbehind]
    rw [hstart, remapOffset_insert_start, if_pos (by omega)]
    omega
  constructor
  · rintro ⟨y, w, hslice, hw, rfl⟩
    exact ⟨s.start + byteLength y, ⟨y, w, hiff.1 hslice, hw, rfl⟩, hshift _⟩
  · rintro ⟨m, ⟨y, w, hslice, hw, rfl⟩, rfl⟩
    exact ⟨y, w, hiff.2 hslice, hw, (hshift _).symm⟩

theorem Replaces.closesAt_remap_iff_of_around
    (h : (insert offset text).Replaces old new before inside (')' :: rest)) (hs : s.Proper)
    (hstart : s.start < offset) (hstop : offset < s.stop) {n : Nat} :
    ClosesAt ((insert offset text).remap s) new.toList n ↔
      ∃ m, ClosesAt s old.toList m ∧ n = (insert offset text).remapOffset m true := by
  have hmoved : ((insert offset text).remap s).start = s.start := by
    rw [remap_insert hs, if_neg (by omega)]
  -- the offset of a parenthesis behind the part `x` in front of the insertion
  have hshift : ∀ {x y : List Char}, IsSlice ⟨s.start, offset⟩ old.toList x →
      ((insert offset text).remap s).start + byteLength (x ++ (text.toList ++ y)) =
        (insert offset text).remapOffset (s.start + byteLength (x ++ y)) true := by
    intro x y hx
    have hlen := hx.stop_eq
    simp only [byteLength_append, hmoved, remapOffset_insert_start] at hlen ⊢
    rw [if_pos (by omega)]
    omega
  constructor
  · rintro ⟨z, w, hslice, hw, rfl⟩
    obtain ⟨x, y, hx, hy, heq⟩ := (h.isSlice_around_iff hstart hstop).1 hslice
    rw [← List.append_assoc] at heq
    obtain ⟨y', rfl, rfl⟩ :=
      exists_eq_append_of_blank (h.mem_of_isSlice_behind hstop hy) hw heq.symm
    refine ⟨s.start + byteLength (x ++ y'), ⟨x ++ y', w, ?_, hw, rfl⟩, ?_⟩
    · rw [List.append_assoc]
      exact hx.append hy
    · rw [List.append_assoc]
      exact hshift hx
  · rintro ⟨m, ⟨z, w, hslice, hw, rfl⟩, rfl⟩
    obtain ⟨x, y, hx, hy, heq⟩ := hslice.exists_append h.isBoundary_offset hstart.le hstop.le
    obtain ⟨y', rfl, rfl⟩ :=
      exists_eq_append_of_blank (h.mem_of_isSlice_behind hstop hy) hw heq.symm
    refine ⟨x ++ (text.toList ++ y'), w, ?_, hw, (hshift hx).symm⟩
    refine (h.isSlice_around_iff hstart hstop).2 ⟨x, _, hx, hy, ?_⟩
    simp only [List.append_assoc]

/-- An insertion in front of a parenthesis keeps and reflects where a proper span closes. -/
theorem Replaces.closesAt_remap_iff
    (h : (insert offset text).Replaces old new before inside (')' :: rest)) (hs : s.Proper) {n : Nat} :
    ClosesAt ((insert offset text).remap s) new.toList n ↔
      ∃ m, ClosesAt s old.toList m ∧ n = (insert offset text).remapOffset m true := by
  by_cases hbefore : s.stop ≤ offset
  · exact h.closesAt_remap_iff_of_before hs hbefore
  · by_cases hbehind : offset ≤ s.start
    · exact h.closesAt_remap_iff_of_behind hs hbehind
    · exact h.closesAt_remap_iff_of_around hs (Nat.lt_of_not_le hbehind) (Nat.lt_of_not_le hbefore)

end

end TextEdit
end CaseUnion
