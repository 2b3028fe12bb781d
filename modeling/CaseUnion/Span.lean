/-!
# Spans of a text

A span is a pair of byte offsets into a text. Nothing orders its ends: an inverted span is a legal
value that is empty and has length zero. Spans are ordered by their start, then by their stop.
-/

namespace CaseUnion

structure Span where
  start : Nat
  stop : Nat
  deriving DecidableEq, Repr, Inhabited

namespace Span

/-- The number of bytes between the two ends, zero for an inverted span. -/
def length (s : Span) : Nat := s.stop - s.start

def isEmpty (s : Span) : Bool := s.stop ≤ s.start

/-- Both ends of `t` lie within the ends of `s`. -/
def contains (s t : Span) : Bool := s.start ≤ t.start && t.stop ≤ s.stop

/-- The order of spans: by start, then by stop. -/
def precedes (s t : Span) : Bool :=
  s.start < t.start || (s.start == t.start && s.stop ≤ t.stop)

theorem precedes_total (s t : Span) : s.precedes t || t.precedes s := by
  simp only [precedes, Bool.or_eq_true, Bool.and_eq_true, decide_eq_true_eq, beq_iff_eq]
  omega

theorem precedes_antisymm {s t : Span} (hst : s.precedes t) (hts : t.precedes s) : s = t := by
  obtain ⟨start, stop⟩ := s
  obtain ⟨start', stop'⟩ := t
  simp only [precedes, Bool.or_eq_true, Bool.and_eq_true, decide_eq_true_eq, beq_iff_eq] at hst hts
  rw [mk.injEq]
  omega

end Span
end CaseUnion
