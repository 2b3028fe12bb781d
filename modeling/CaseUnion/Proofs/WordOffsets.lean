import CaseUnion.Proofs.DocumentEditing

/-!
# Offsets in words

Moving a span along an edit takes two sums of offsets: the new text ends at the first, and what
stands behind the edit is shifted by the second. If the greatest of them stays in a word
(`StaysInWord`), then the span goes in words where it goes without them, whatever happens to sums
beyond (`remapIn_of_staysInWord`). Otherwise there is no result, or an offset from behind the edit
has come in front of the end of the new text (`remapOffsetIn_lt`). A span that fits the text never
leaves the word (`staysInWord_of_fits`).
-/

namespace CaseUnion

/-- Both ends are offsets that a word holds. -/
def Span.InWord (s : Span) : Prop := s.start ≤ maxOffset ∧ s.stop ≤ maxOffset

instance (s : Span) : Decidable s.InWord :=
  inferInstanceAs (Decidable (s.start ≤ maxOffset ∧ s.stop ≤ maxOffset))

namespace Overflow

variable {o : Overflow} {i j k : Nat}

theorem add_of_le (h : i + j ≤ maxOffset) : o.add i j = some (i + j) := if_pos h

/-- A sum that leaves the word has come back in front of both of its parts. -/
theorem lt_of_add (hi : i ≤ maxOffset) (h : maxOffset < i + j) (hadd : o.add i j = some k) :
    k < j := by
  rw [add.eq_def, if_neg (Nat.not_le_of_lt h)] at hadd
  cases o with
  | stops => cases hadd
  | wraps =>
    rw [Option.some.injEq] at hadd
    simp only [maxOffset] at *
    omega

end Overflow

namespace TextEdit

open Text

/-- No sum on the way of the span along the edit leaves the word. -/
def StaysInWord (e : TextEdit) (s : Span) : Prop :=
  max s.start s.stop - e.span.stop + e.newStop ≤ maxOffset

instance (e : TextEdit) (s : Span) : Decidable (e.StaysInWord s) :=
  inferInstanceAs (Decidable (max s.start s.stop - e.span.stop + e.newStop ≤ maxOffset))

variable {e : TextEdit} {s : Span} {o : Overflow} {n m : Nat} {isStart : Bool}

theorem staysInWord_iff : e.StaysInWord s ↔
    s.start - e.span.stop + e.newStop ≤ maxOffset ∧
      s.stop - e.span.stop + e.newStop ≤ maxOffset := by
  rw [StaysInWord]
  omega

theorem remapOffsetIn_eq (hstop : e.newStop ≤ maxOffset) : e.remapOffsetIn o n isStart =
    if e.span.stop < n ∨ (n = e.span.stop ∧ (isStart ∨ e.span.start < e.span.stop)) then
      o.add (n - e.span.stop) e.newStop
    else some (e.remapOffset n isStart) := by
  have hsum : o.add e.span.start (Text.byteLength e.text.toList) = some e.newStop :=
    Overflow.add_of_le hstop
  rw [remapOffsetIn, hsum, remapOffset_eq]
  simp only [Option.bind_eq_bind, Option.bind_some, Bool.or_eq_true, Bool.and_eq_true,
    decide_eq_true_eq, beq_iff_eq, gt_iff_lt]
  split_ifs <;> rfl

theorem remapOffsetIn_of_le (h : n - e.span.stop + e.newStop ≤ maxOffset) :
    e.remapOffsetIn o n isStart = some (e.remapOffset n isStart) := by
  rw [remapOffsetIn_eq (Nat.le_trans (Nat.le_add_left _ _) h)]
  split
  · next hbehind => rw [remapOffset_eq, if_pos hbehind, Overflow.add_of_le h]
  · rfl

/-- What is shifted out of the word is not behind the new text any more. -/
theorem remapOffsetIn_lt (hn : n ≤ maxOffset) (hstop : e.newStop ≤ maxOffset)
    (h : maxOffset < n - e.span.stop + e.newStop) (hm : e.remapOffsetIn o n isStart = some m) :
    m < e.newStop := by
  have hbehind : e.span.stop < n := by omega
  rw [remapOffsetIn_eq hstop, if_pos (.inl hbehind)] at hm
  exact Overflow.lt_of_add (Nat.le_trans (Nat.sub_le _ _) hn) h hm

theorem remapIn_eq_some_iff {t : Span} : e.remapIn o s = some t ↔
    ∃ i j, e.remapOffsetIn o s.start true = some i ∧ e.remapOffsetIn o s.stop false = some j ∧
      t = ⟨i, max j i⟩ := by
  simp only [remapIn, Option.bind_eq_bind, Option.bind_eq_some_iff, Option.pure_def,
    Option.some.injEq, eq_comm (a := t)]
  grind

theorem remapIn_of_staysInWord (h : e.StaysInWord s) (o : Overflow) :
    e.remapIn o s = some (e.remap s) := by
  obtain ⟨hstart, hstop⟩ := staysInWord_iff.1 h
  exact remapIn_eq_some_iff.2 ⟨_, _, remapOffsetIn_of_le hstart, remapOffsetIn_of_le hstop, rfl⟩

section
variable {old new : String} {before inside after : List Char}

theorem Replaces.size_old (h : e.Replaces old new before inside after) :
    old.utf8ByteSize = e.span.stop + byteLength after := by
  rw [← byteLength_toList, h.old_eq, byteLength_append, byteLength_append, h.start_eq, h.stop_eq]

theorem Replaces.size_new (h : e.Replaces old new before inside after) :
    new.utf8ByteSize = e.newStop + byteLength after := by
  rw [← byteLength_toList, h.new_eq, byteLength_append, h.newStop_eq]

theorem staysInWord_of_fits (happly : e.apply old = .ok new) (hfits : Fits s old)
    (hsize : new.utf8ByteSize ≤ maxOffset) : e.StaysInWord s := by
  obtain ⟨before, inside, after, h⟩ := apply_eq_ok_iff.1 happly
  have hordered := hfits.ordered
  have hrange := hfits.inRange
  rw [h.size_old] at hrange
  rw [h.size_new] at hsize
  rw [StaysInWord]
  omega

end

end TextEdit
end CaseUnion
