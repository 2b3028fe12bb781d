import Mathlib.Tactic.SplitIfs
import CaseUnion.Proofs.DocumentEditing

/-!
# Separate edits

Two edits are separate if some of the text stands between their spans. Each of them can then be moved
along with the other (`movedBy`), and it does not matter which one is applied first: the text is the
same (`Replaces.divides`), and so are all recorded spans, whether they fit the text or not
(`remap_comm`).

An edit moves starts and stops by two maps, and afterwards a stop that would stand before its start
is put there. Both maps are monotone, and no stop is moved further than a start from the same place,
so the starts and stops of two edits can be followed one by one (`remap_remap`).
-/

namespace CaseUnion

namespace TextEdit

open Text

/-- The edit on the text that another edit has changed. -/
def movedBy (e other : TextEdit) : TextEdit := { e with span := other.remap e.span }

/-! ### Offsets -/

section
variable {e : TextEdit} {i j : Nat} {isStart : Bool}

theorem remapOffset_of_lt (he : e.span.start ≤ e.span.stop) (h : i < e.span.start) :
    e.remapOffset i isStart = i := by
  rw [remapOffset_eq, if_neg (by omega), if_neg (by omega)]

theorem remapOffset_of_gt (h : e.span.stop < i) :
    e.remapOffset i isStart = i - e.span.stop + e.newStop := by
  rw [remapOffset_eq, if_pos (.inl h)]

theorem le_remapOffset (h : e.span.start ≤ i) :
    e.span.start ≤ e.remapOffset i isStart := by
  rw [remapOffset_eq, newStop]
  split_ifs <;> omega

theorem remapOffset_mono (he : e.span.start ≤ e.span.stop) (h : i ≤ j) :
    e.remapOffset i isStart ≤ e.remapOffset j isStart := by
  rw [remapOffset_eq, remapOffset_eq, newStop]
  cases isStart <;> simp only [Bool.false_eq_true, false_or, true_or, and_true] <;>
    split_ifs <;> omega

/-- An offset in front of another one behind the edit stays in front of it. -/
theorem remapOffset_lt (hj : e.span.stop < j) (h : i < j) :
    e.remapOffset i isStart < j - e.span.stop + e.newStop := by
  rw [remapOffset_eq, newStop]
  split_ifs <;> omega

theorem remapOffset_stop_le_start : e.remapOffset i false ≤ e.remapOffset i true := by
  rw [remapOffset_eq, remapOffset_eq, newStop]
  simp only [Bool.false_eq_true, false_or, true_or, and_true]
  split_ifs <;> omega

/-- A stop that the first of two edits would put before its start is put there by the second. -/
theorem remap_remap (e : TextEdit) {e' : TextEdit} (he' : e'.span.start ≤ e'.span.stop) (s : Span) :
    e'.remap (e.remap s) =
      ⟨e'.remapOffset (e.remapOffset s.start true) true,
        max (e'.remapOffset (e.remapOffset s.stop false) false)
          (e'.remapOffset (e.remapOffset s.start true) true)⟩ := by
  simp only [remap, Span.mk.injEq, true_and]
  rcases Nat.le_total (e.remapOffset s.start true) (e.remapOffset s.stop false) with hle | hle
  · rw [Nat.max_eq_left hle]
  · have hstart := remapOffset_stop_le_start (e := e') (i := e.remapOffset s.start true)
    have hstop : e'.remapOffset (e.remapOffset s.stop false) false ≤
        e'.remapOffset (e.remapOffset s.start true) false := remapOffset_mono he' hle
    rw [Nat.max_eq_right hle, Nat.max_eq_right hstart,
      Nat.max_eq_right (Nat.le_trans hstop hstart)]

end

section
variable {first second : TextEdit} (hfirst : first.span.start ≤ first.span.stop)
  (hsecond : second.span.start ≤ second.span.stop) (hapart : first.span.stop < second.span.start)
include hfirst hsecond hapart

theorem movedBy_behind : first.movedBy second = first := by
  rw [movedBy, remap_of_before hsecond hfirst (Nat.le_of_lt hapart) (by omega)]

theorem span_movedBy_before : (second.movedBy first).span =
    ⟨second.span.start - first.span.stop + first.newStop,
      second.span.stop - first.span.stop + first.newStop⟩ :=
  remap_of_behind hfirst hsecond (Nat.le_of_lt hapart)

/-- Behind the first edit the second one does what it did before. -/
theorem remapOffset_movedBy {n : Nat} (hn : second.span.start ≤ n) (isStart : Bool) :
    (second.movedBy first).remapOffset (n - first.span.stop + first.newStop) isStart =
      second.remapOffset n isStart - first.span.stop + first.newStop := by
  have hspan := span_movedBy_before hfirst hsecond hapart
  have htext : (second.movedBy first).text = second.text := rfl
  simp only [remapOffset_eq, newStop, hspan, htext]
  cases isStart <;> simp only [Bool.false_eq_true, false_or, true_or, and_true] <;>
    split_ifs <;> omega

theorem remapOffset_comm (n : Nat) (isStart : Bool) :
    (second.movedBy first).remapOffset (first.remapOffset n isStart) isStart =
      first.remapOffset (second.remapOffset n isStart) isStart := by
  have hspan := span_movedBy_before hfirst hsecond hapart
  rcases Nat.lt_or_ge n second.span.start with hn | hn
  · have hbefore : first.remapOffset n isStart <
        second.span.start - first.span.stop + first.newStop := remapOffset_lt hapart hn
    rw [remapOffset_of_lt hsecond hn, remapOffset_of_lt _ (by rwa [hspan])]
    rw [hspan]
    simp only
    omega
  · have hbehind : second.span.start ≤ second.remapOffset n isStart := le_remapOffset hn
    rw [remapOffset_of_gt (Nat.lt_of_lt_of_le hapart hn),
      remapOffset_of_gt (Nat.lt_of_lt_of_le hapart hbehind),
      remapOffset_movedBy hfirst hsecond hapart hn]

theorem remap_comm (s : Span) :
    (second.movedBy first).remap (first.remap s) = (first.movedBy second).remap (second.remap s) := by
  have hspan := span_movedBy_before hfirst hsecond hapart
  have hmoved : (second.movedBy first).span.start ≤ (second.movedBy first).span.stop := by
    rw [hspan]
    simp only
    omega
  rw [movedBy_behind hfirst hsecond hapart, remap_remap first hmoved, remap_remap second hfirst]
  simp only [remapOffset_comm hfirst hsecond hapart]

end

/-! ### The text -/

/-- Two edits take the old text to the new one: what stands before, between and after their spans is
kept. -/
structure BothReplace (first second : TextEdit) (old new : String)
    (before inside middle inside' after : List Char) : Prop where
  old_eq : old.toList = before ++ inside ++ middle ++ inside' ++ after
  new_eq : new.toList = before ++ first.text.toList ++ middle ++ second.text.toList ++ after
  start_eq : byteLength before = first.span.start
  stop_eq : first.span.start + byteLength inside = first.span.stop
  start_eq' : first.span.stop + byteLength middle = second.span.start
  stop_eq' : second.span.start + byteLength inside' = second.span.stop

theorem exists_bothReplace {first second : TextEdit} {old : String} (hfirst : Fits first.span old)
    (hsecond : Fits second.span old) (hapart : first.span.stop < second.span.start) :
    ∃ new before inside middle inside' after,
      first.BothReplace second old new before inside middle inside' after := by
  obtain ⟨inside, before, rest, hold, hstart, hstop⟩ := fits_iff_exists_isSlice.1 hfirst
  obtain ⟨inside', front, after, hold', hstart', hstop'⟩ := fits_iff_exists_isSlice.1 hsecond
  have hle : byteLength (before ++ inside) ≤ byteLength front := by
    rw [byteLength_append]
    omega
  obtain ⟨middle, rfl, rfl⟩ := exists_eq_append_of_byteLength_le
    (hold.symm.trans (hold'.trans (List.append_assoc _ _ _))) hle
  rw [byteLength_append, byteLength_append, hstart, hstop] at hstart'
  exact ⟨.ofList (before ++ first.text.toList ++ middle ++ second.text.toList ++ after), before,
    inside, middle, inside', after, hold', String.toList_ofList, hstart, hstop, hstart', hstop'⟩

namespace BothReplace

variable {first second : TextEdit} {old new : String}
  {before inside middle inside' after : List Char}
  (h : first.BothReplace second old new before inside middle inside' after)
include h

/-- The text after the first edit alone. -/
theorem first_replaces : first.Replaces old
    (.ofList (before ++ first.text.toList ++ (middle ++ inside' ++ after))) before inside
    (middle ++ inside' ++ after) where
  old_eq := by simp only [h.old_eq, List.append_assoc]
  new_eq := String.toList_ofList
  start_eq := h.start_eq
  stop_eq := h.stop_eq

/-- The text after the second edit alone. -/
theorem second_replaces : second.Replaces old
    (.ofList (before ++ inside ++ middle ++ second.text.toList ++ after)) (before ++ inside ++ middle)
    inside' after where
  old_eq := h.old_eq
  new_eq := String.toList_ofList
  start_eq := by rw [byteLength_append, byteLength_append, h.start_eq, h.stop_eq, h.start_eq']
  stop_eq := h.stop_eq'

theorem first_replaces_last (hapart : first.span.stop < second.span.start) :
    (first.movedBy second).Replaces
      (.ofList (before ++ inside ++ middle ++ second.text.toList ++ after)) new before inside
      (middle ++ second.text.toList ++ after) := by
  rw [movedBy_behind h.first_replaces.fits.ordered h.second_replaces.fits.ordered hapart]
  constructor
  case old_eq => simp only [String.toList_ofList, List.append_assoc]
  case new_eq => simp only [h.new_eq, List.append_assoc]
  case start_eq => exact h.start_eq
  case stop_eq => exact h.stop_eq

theorem second_replaces_last (hapart : first.span.stop < second.span.start) :
    (second.movedBy first).Replaces
      (.ofList (before ++ first.text.toList ++ (middle ++ inside' ++ after))) new
      (before ++ first.text.toList ++ middle) inside' after := by
  have hspan := span_movedBy_before h.first_replaces.fits.ordered h.second_replaces.fits.ordered
    hapart
  have hlength := h.start_eq'
  have hlength' := h.stop_eq'
  constructor
  case old_eq => simp only [String.toList_ofList, List.append_assoc]
  case new_eq => exact h.new_eq
  case start_eq =>
    rw [byteLength_append, byteLength_append, h.start_eq, hspan, newStop]
    simp only
    omega
  case stop_eq =>
    rw [hspan]
    simp only
    omega

theorem exists_slices : ∃ front between back : String,
    slice? ⟨0, first.span.start⟩ old = some front ∧
      slice? ⟨first.span.stop, second.span.start⟩ old = some between ∧
      slice? ⟨second.span.stop, old.utf8ByteSize⟩ old = some back ∧
      new = front ++ first.text ++ between ++ second.text ++ back := by
  have hbefore : IsSlice ⟨0, first.span.start⟩ old.toList before :=
    ⟨[], inside ++ middle ++ inside' ++ after, by simp [h.old_eq], rfl, by simp [h.start_eq]⟩
  have hmiddle : IsSlice ⟨first.span.stop, second.span.start⟩ old.toList middle :=
    ⟨before ++ inside, inside' ++ after, by simp [h.old_eq],
      by rw [byteLength_append, h.start_eq, h.stop_eq], h.start_eq'⟩
  have hafter : IsSlice ⟨second.span.stop, old.utf8ByteSize⟩ old.toList after := by
    refine ⟨before ++ inside ++ middle ++ inside', [], by simp [h.old_eq], ?_, ?_⟩
    · simp only [byteLength_append, h.start_eq, h.stop_eq, h.start_eq', h.stop_eq']
    · simp only [← byteLength_toList, h.old_eq, byteLength_append, h.start_eq, h.stop_eq, h.start_eq',
        h.stop_eq']
  refine ⟨_, _, _, hbefore.slice?_eq, hmiddle.slice?_eq, hafter.slice?_eq, ?_⟩
  rw [← String.toList_inj, h.new_eq]
  simp

end BothReplace

end TextEdit

/-! ### Documents -/

section
variable (f g : Span → Span)

mutual

theorem TypeDecl.mapSpans_mapSpans : (d : TypeDecl) →
    (d.mapSpans f).mapSpans g = d.mapSpans (g ∘ f)
  | ⟨header, members⟩ => by
    rw [TypeDecl.mapSpans, TypeDecl.mapSpans, TypeDecl.mapSpans, Member.mapAllSpans_mapAllSpans,
      Option.map_map]

theorem Member.mapSpans_mapSpans : (m : Member) → (m.mapSpans f).mapSpans g = m.mapSpans (g ∘ f)
  | .type decl => by
    rw [Member.mapSpans, Member.mapSpans, Member.mapSpans, decl.mapSpans_mapSpans]
  | .method decl => by rw [Member.mapSpans, Member.mapSpans, Member.mapSpans, Option.map_map]

theorem Member.mapAllSpans_mapAllSpans : (members : List Member) →
    Member.mapAllSpans g (Member.mapAllSpans f members) = Member.mapAllSpans (g ∘ f) members
  | [] => rfl
  | m :: rest => by
    rw [Member.mapAllSpans, Member.mapAllSpans, Member.mapAllSpans, m.mapSpans_mapSpans,
      Member.mapAllSpans_mapAllSpans rest]

end

theorem Document.mapSpans_mapSpans (d : Document) :
    (d.mapSpans f).mapSpans g = d.mapSpans (g ∘ f) := by
  simp only [Document.mapSpans, List.map_map, Function.comp_def, TypeDecl.mapSpans_mapSpans]

end

namespace Document

/-- Two edits in a row move every span twice. -/
theorem edit_edit_eq_ok {d : Document} {e e' : TextEdit} {text text' : String}
    (h : e.apply d.text = .ok text) (h' : e'.apply text = .ok text') :
    ∃ between, d.edit e = .ok between ∧
      between.edit e' = .ok { d.mapSpans (e'.remap ∘ e.remap) with text := text' } := by
  refine ⟨{ d.mapSpans e.remap with text := text }, edit_eq_ok_iff.2 ⟨h, rfl⟩,
    edit_eq_ok_iff.2 ⟨h', ?_⟩⟩
  rw [← mapSpans_mapSpans]
  rfl

/-- Two edits with some of the text between their spans can be applied in either order, each moved
along with the one before it. Both orders give the same document, with both replacements made, and
move every span to the same place. -/
theorem edits_commute (d : Document) (first second : TextEdit)
    (hfirst : Text.Fits first.span d.text) (hsecond : Text.Fits second.span d.text)
    (hapart : first.span.stop < second.span.start) :
    ∃ onlyFirst onlySecond both,
      d.edit first = .ok onlyFirst ∧ onlyFirst.edit (second.movedBy first) = .ok both ∧
      d.edit second = .ok onlySecond ∧ onlySecond.edit (first.movedBy second) = .ok both ∧
      (∃ front between back, d.slice? ⟨0, first.span.start⟩ = some front ∧
        d.slice? ⟨first.span.stop, second.span.start⟩ = some between ∧
        d.slice? ⟨second.span.stop, d.text.utf8ByteSize⟩ = some back ∧
        both.text = front ++ first.text ++ between ++ second.text ++ back) ∧
      both.spans = d.spans.map (fun s => (second.movedBy first).remap (first.remap s)) ∧
      ∀ s, (second.movedBy first).remap (first.remap s) =
        (first.movedBy second).remap (second.remap s) := by
  obtain ⟨text, before, inside, middle, inside', after, h⟩ :=
    TextEdit.exists_bothReplace hfirst hsecond hapart
  have hcomm := TextEdit.remap_comm hfirst.ordered hsecond.ordered hapart
  obtain ⟨onlyFirst, hedit, hboth⟩ := edit_edit_eq_ok
    (TextEdit.apply_eq_ok_iff.2 ⟨_, _, _, h.first_replaces⟩)
    (TextEdit.apply_eq_ok_iff.2 ⟨_, _, _, h.second_replaces_last hapart⟩)
  obtain ⟨onlySecond, hedit', hboth'⟩ := edit_edit_eq_ok
    (TextEdit.apply_eq_ok_iff.2 ⟨_, _, _, h.second_replaces⟩)
    (TextEdit.apply_eq_ok_iff.2 ⟨_, _, _, h.first_replaces_last hapart⟩)
  have hcomp : (second.movedBy first).remap ∘ first.remap =
      (first.movedBy second).remap ∘ second.remap := funext hcomm
  refine ⟨onlyFirst, onlySecond, _, hedit, hboth, hedit', ?_, h.exists_slices, ?_, hcomm⟩
  · rw [hboth', hcomp]
  · exact spans_mapSpans _ d

/-- A document with a span around two calls, an empty span where an argument is missing, an inverted
span, and one that leaves the text. -/
def twoCalls : Document where
  path := "calls.json"
  text := "f(x) + g(y)"
  expressions := [⟨.objectCreation, none, ⟨0, 11⟩⟩, ⟨.objectCreation, none, ⟨10, 10⟩⟩,
    ⟨.objectCreation, none, ⟨9, 3⟩⟩, ⟨.objectCreation, none, ⟨5, 40⟩⟩]

theorem edits_commute_twoCalls :
    ∃ renamed extended both, twoCalls.edit ⟨⟨2, 3⟩, "xx"⟩ = .ok renamed ∧
      renamed.edit ⟨⟨11, 11⟩, ", z"⟩ = .ok both ∧
      twoCalls.edit ⟨⟨10, 10⟩, ", z"⟩ = .ok extended ∧ extended.edit ⟨⟨2, 3⟩, "xx"⟩ = .ok both ∧
      both.text = "f(xx) + g(y, z)" ∧ both.spans = [⟨0, 15⟩, ⟨14, 14⟩, ⟨10, 10⟩, ⟨6, 44⟩] := by
  obtain ⟨renamed, extended, both, hrenamed, hboth, hextended, hboth', htext, hspans, -⟩ :=
    edits_commute twoCalls ⟨⟨2, 3⟩, "xx"⟩ ⟨⟨10, 10⟩, ", z"⟩
      (Text.fits_iff_isSome_slice?.2 (by decide +kernel))
      (Text.fits_iff_isSome_slice?.2 (by decide +kernel)) (by decide)
  refine ⟨renamed, extended, both, hrenamed, hboth, hextended, hboth', ?_,
    hspans.trans (by decide +kernel)⟩
  obtain ⟨front, between, back, hfront, hbetween, hback, htext⟩ := htext
  have hfront' : front = "f(" := Option.some.inj (hfront.symm.trans (by decide +kernel))
  have hbetween' : between = ") + g(y" := Option.some.inj (hbetween.symm.trans (by decide +kernel))
  have hback' : back = ")" := Option.some.inj (hback.symm.trans (by decide +kernel))
  rw [htext, hfront', hbetween', hback']
  decide +kernel

end Document
end CaseUnion
