import Mathlib.Data.List.Forall2
import CaseUnion.Initialization
import CaseUnion.Proofs.DeclarationKeys

/-!
# Reported initializations

An expression at its place (`Site`) offends if its document is not generated and some declaration of
the definition of its type is a union that allows no default. Every offending site is reported once
and nothing else is (`check_reports_offending_sites`). Reports are sorted by source name and span,
and a stable sort leaves the others in the order of documents and expressions
(`pairwise_mergeSort_stable`).
-/

namespace CaseUnion

/-- Of two elements that a stable sort may leave in either order, the first was first before. -/
theorem pairwise_mergeSort_stable {α : Type} (le : α → α → Bool) {R : α → α → Prop}
    (htrans : ∀ a b c, le a b → le b c → le a c) (htotal : ∀ a b, le a b || le b a) {l : List α}
    (h : l.Pairwise R) : (l.mergeSort le).Pairwise fun a b => le a b ∧ (le b a → R a b) := by
  rw [← List.mergeSort_zipIdx, List.pairwise_map]
  have hperm := List.mergeSort_perm l.zipIdx (List.zipIdxLE le)
  have hdistinct : (l.zipIdx.mergeSort (List.zipIdxLE le)).Pairwise fun a b => a.2 ≠ b.2 :=
    ((pairwise_snd_zipIdx l).imp Nat.ne_of_lt).perm hperm.symm fun hab => hab.symm
  have hsorted := List.pairwise_mergeSort (List.zipIdxLE_trans htrans)
    (List.zipIdxLE_total htotal) l.zipIdx
  refine (hsorted.and hdistinct).imp_of_mem fun {a b} ha hb ⟨hle, hne⟩ => ?_
  have hmem := List.mem_zipIdx_iff_getElem?.1 (hperm.mem_iff.1 ha)
  have hmem' := List.mem_zipIdx_iff_getElem?.1 (hperm.mem_iff.1 hb)
  simp only [List.zipIdxLE] at hle
  by_cases hab : le a.1 b.1
  · refine ⟨hab, fun hba => ?_⟩
    simp only [hab, hba, if_true, decide_eq_true_eq] at hle
    obtain ⟨hi, hgi⟩ := List.getElem?_eq_some_iff.1 hmem
    obtain ⟨hj, hgj⟩ := List.getElem?_eq_some_iff.1 hmem'
    have hlt := List.pairwise_iff_getElem.1 h a.2 b.2 hi hj (Nat.lt_of_le_of_ne hle hne)
    rwa [hgi, hgj] at hlt
  · simp [hab] at hle

/-- An expression in its place: the position of its document and its own position there. -/
structure Site where
  position : Nat
  document : Document
  index : Nat
  expression : Expression

namespace Site

/-- One place comes before another in the order of documents and expressions. -/
def Earlier (x y : Site) : Prop :=
  x.position < y.position ∨ x.position = y.position ∧ x.index < y.index

/-- The order of reports: by source name, by the start and by the end of the span, and then by
document and expression. -/
def Before (x y : Site) : Prop :=
  x.document.sourceName < y.document.sourceName ∨
    x.document.sourceName = y.document.sourceName ∧
      (x.expression.span.start < y.expression.span.start ∨
        x.expression.span.start = y.expression.span.start ∧
          (x.expression.span.stop < y.expression.span.stop ∨
            x.expression.span.stop = y.expression.span.stop ∧ x.Earlier y))

/-- The expression initializes a union in a way that its marker does not allow. -/
structure Offends (documents : List Document) (s : Settings) (x : Site) : Prop where
  document : documents[x.position]? = some x.document
  expression : x.document.expressions[x.index]? = some x.expression
  notGenerated : ¬ s.generatedSuffix.toList <:+ x.document.sourceName.toList
  guarded : ∃ type, x.expression.type = some type ∧
    ∃ id ∈ (Compilation.ofDocuments documents).declarationsOf type x.document.nameSpace,
      ∃ e, (Compilation.ofDocuments documents).entryOf? id = some e ∧
        ∃ eligible, s.eligible? e.decl = some eligible ∧
          eligible.marker.arguments.get? "AllowDefault" ≠ some (.flag true)

/-- A failure says of the expression that it is forbidden, and points into no other document. -/
structure ReportedBy (x : Site) (f : Failure) : Prop where
  code : f.code.text = "DU1"
  span : f.span = some x.expression.span
  source : f.source? = some ⟨x.document.sourceName, x.document.text⟩
  labels : ∀ label ∈ f.labels, ∃ header ∈ x.document.headers, header.span = some label.span

/-- All expressions of documents, in order. -/
def all (documents : List Document) : List Site :=
  documents.zipIdx.flatMap fun (d, position) =>
    d.expressions.zipIdx.map fun (e, index) => ⟨position, d, index, e⟩

theorem mem_all_iff {documents : List Document} {x : Site} :
    x ∈ all documents ↔ documents[x.position]? = some x.document ∧
      x.document.expressions[x.index]? = some x.expression := by
  rw [all, List.mem_flatMap]
  constructor
  · rintro ⟨⟨d, position⟩, hd, hx⟩
    obtain ⟨⟨e, index⟩, he, rfl⟩ := List.mem_map.1 hx
    exact ⟨List.mk_mem_zipIdx_iff_getElem?.1 hd, List.mk_mem_zipIdx_iff_getElem?.1 he⟩
  · rintro ⟨hd, he⟩
    exact ⟨(x.document, x.position), List.mk_mem_zipIdx_iff_getElem?.2 hd,
      List.mem_map.2 ⟨(x.expression, x.index), List.mk_mem_zipIdx_iff_getElem?.2 he, rfl⟩⟩

theorem pairwise_all (documents : List Document) : (all documents).Pairwise Earlier := by
  rw [all, List.pairwise_flatMap]
  constructor
  · intro ⟨d, position⟩ _
    rw [List.pairwise_map]
    exact (pairwise_snd_zipIdx d.expressions).imp fun h => .inr ⟨rfl, h⟩
  · refine (pairwise_snd_zipIdx documents).imp fun hab x hx y hy => ?_
    obtain ⟨_, _, rfl⟩ := List.mem_map.1 hx
    obtain ⟨_, _, rfl⟩ := List.mem_map.1 hy
    exact .inl hab

end Site

namespace Compilation

theorem Finding.precedes_iff {a b : Finding} : a.precedes b ↔
    a.sourceName < b.sourceName ∨ a.sourceName = b.sourceName ∧ (a.span.start < b.span.start ∨
      a.span.start = b.span.start ∧ a.span.stop ≤ b.span.stop) := by
  simp only [Finding.precedes, Span.precedes, Bool.or_eq_true, Bool.and_eq_true, beq_iff_eq,
    decide_eq_true_eq]

theorem Finding.precedes_trans (a b c : Finding) (hab : a.precedes b) (hbc : b.precedes c) :
    a.precedes c := by
  rw [precedes_iff] at *
  rcases hab with hab | ⟨hab, hspan⟩
  · rcases hbc with hbc | ⟨hbc, -⟩
    · exact .inl (String.lt_trans hab hbc)
    · exact .inl (hbc ▸ hab)
  · rcases hbc with hbc | ⟨hbc, hspan'⟩
    · exact .inl (hab ▸ hbc)
    · exact .inr ⟨hab.trans hbc, by omega⟩

theorem Finding.precedes_total (a b : Finding) : a.precedes b || b.precedes a := by
  rw [Bool.or_eq_true, precedes_iff, precedes_iff]
  by_cases hlt : a.sourceName < b.sourceName
  · exact .inl (.inl hlt)
  by_cases hgt : b.sourceName < a.sourceName
  · exact .inr (.inl hgt)
  have heq : a.sourceName = b.sourceName :=
    String.le_antisymm (String.not_lt.1 hgt) (String.not_lt.1 hlt)
  have hspan := Span.precedes_total a.span b.span
  simp only [Span.precedes, Bool.or_eq_true, Bool.and_eq_true, beq_iff_eq,
    decide_eq_true_eq] at hspan
  exact hspan.imp (fun h => .inr ⟨heq, h⟩) fun h => .inr ⟨heq.symm, h⟩

variable {documents : List Document} {s : Settings} {x : Site} {f : Failure}

theorem allowDefault_eq_true_iff {eligible : Eligible} :
    eligible.allowDefault = true ↔
      eligible.marker.arguments.get? "AllowDefault" = some (.flag true) := by
  rw [Eligible.allowDefault, Attribute.flag?]
  split <;> simp_all

/-- A declaration is found iff one of the declarations meant is a union without default. -/
theorem isSome_guarded?_iff {c : Compilation} {type : TypeRef} {nameSpace : Option String} :
    (c.guarded? s type nameSpace).isSome ↔ ∃ id ∈ c.declarationsOf type nameSpace,
      ∃ e, c.entryOf? id = some e ∧ ∃ eligible, s.eligible? e.decl = some eligible ∧
        eligible.marker.arguments.get? "AllowDefault" ≠ some (.flag true) := by
  rw [guarded?, Option.isSome_map, List.find?_isSome, lookup]
  simp only [List.mem_filterMap, Option.map_eq_some_iff]
  constructor
  · rintro ⟨_, ⟨id, hid, e, he, rfl⟩, h⟩
    refine ⟨id, hid, e, he, ?_⟩
    cases heligible : s.eligible? e.decl with
    | none => simp [heligible] at h
    | some eligible =>
      refine ⟨eligible, rfl, fun hallowed => ?_⟩
      simp [heligible, allowDefault_eq_true_iff.2 hallowed] at h
  · rintro ⟨id, hid, e, he, eligible, heligible, hnot⟩
    refine ⟨(id, e), ⟨id, hid, e, he, rfl⟩, ?_⟩
    simpa [heligible, ← allowDefault_eq_true_iff] using hnot

theorem mem_entries_of_guarded? {c : Compilation} {type : TypeRef} {nameSpace : Option String}
    {e : Entry} (h : c.guarded? s type nameSpace = some e) : e ∈ c.entries := by
  obtain ⟨⟨id, e⟩, hfound, rfl⟩ := Option.map_eq_some_iff.1 h
  obtain ⟨id', -, hentry⟩ := List.mem_filterMap.1 (List.mem_of_find?_eq_some hfound)
  obtain ⟨e', hentry', heq⟩ := Option.map_eq_some_iff.1 hentry
  cases heq
  exact List.mem_of_getElem? hentry'

theorem header_mem_of_mem_entries {e : Entry} {d : Document}
    (h : e ∈ (ofDocuments documents).entries) (hd : documents[e.document]? = some d) :
    e.decl.header ∈ d.headers := by
  obtain ⟨k, d', _, hk, hdocument, inner, hinner, hheaders, -⟩ := Entry.exists_of_mem_ofDocuments h
  simp only [Nat.zero_add] at hdocument
  rw [hdocument, hk, Option.some.injEq] at hd
  subst hd
  rw [List.nil_append] at hinner
  exact hheaders e.decl (by simp [← hinner])

def report? (documents : List Document) (s : Settings) (x : Site) : Option Failure :=
  if s.isGenerated x.document.sourceName then none
  else (ofDocuments documents).initialization? s x.position x.document x.expression

theorem isSome_initialization?_iff {c : Compilation} {position : Nat} {d : Document}
    {e : Expression} : (c.initialization? s position d e).isSome ↔
      ∃ type, e.type = some type ∧ (c.guarded? s type d.nameSpace).isSome := by
  rw [initialization?]
  cases e.type with
  | none => simp
  | some type => cases hfound : c.guarded? s type d.nameSpace <;> simp [hfound]

theorem text_code_defaultInitialization : Cause.defaultInitialization.code.text = "DU1" := by decide

/-- A label is only set for a declaration in the same document. -/
theorem reportedBy_of_initialization? (hd : documents[x.position]? = some x.document)
    (h : (ofDocuments documents).initialization? s x.position x.document x.expression = some f) :
    x.ReportedBy f := by
  rw [initialization?] at h
  simp only [Option.bind_eq_bind, Option.bind_eq_some_iff, Option.pure_def,
    Option.some.injEq] at h
  obtain ⟨type, -, entry, hentry, rfl⟩ := h
  have hmem := mem_entries_of_guarded? hentry
  have hplain : x.ReportedBy
      ((Failure.located .defaultInitialization (some x.expression.span)).withSource
        x.document.source) :=
    ⟨text_code_defaultInitialization, rfl, rfl, fun label hlabel => nomatch hlabel⟩
  cases hspan : entry.decl.header.span with
  | none => exact hplain
  | some span =>
    by_cases hhere : entry.document = x.position
    · simp only [hhere, if_true]
      refine ⟨text_code_defaultInitialization, rfl, rfl, fun label hlabel => ?_⟩
      obtain rfl := List.mem_singleton.1 hlabel
      exact ⟨_, header_mem_of_mem_entries hmem (hhere ▸ hd), hspan⟩
    · simpa only [hhere, if_false] using hplain

theorem isSome_report?_iff (hx : x ∈ Site.all documents) :
    (report? documents s x).isSome ↔ x.Offends documents s := by
  obtain ⟨hd, he⟩ := Site.mem_all_iff.1 hx
  have hsuffix : s.isGenerated x.document.sourceName = true ↔
      s.generatedSuffix.toList <:+ x.document.sourceName.toList := by
    rw [Settings.isGenerated, List.isSuffixOf_iff_suffix]
  rw [report?]
  split
  · rename_i hgenerated
    exact iff_of_false Bool.false_ne_true fun h => h.notGenerated (hsuffix.1 hgenerated)
  · rename_i hgenerated
    simp only [isSome_initialization?_iff, isSome_guarded?_iff]
    exact ⟨fun h => ⟨hd, he, fun hsome => hgenerated (hsuffix.2 hsome), h⟩, fun h => h.guarded⟩

theorem reportedBy_of_report? (hx : x ∈ Site.all documents)
    (h : report? documents s x = some f) : x.ReportedBy f := by
  rw [report?] at h
  split at h
  · cases h
  · exact reportedBy_of_initialization? (Site.mem_all_iff.1 hx).1 h

def reported (documents : List Document) (s : Settings) : List (Site × Failure) :=
  (Site.all documents).filterMap fun x => (report? documents s x).map (x, ·)

theorem mem_reported_iff : (x, f) ∈ reported documents s ↔
    x ∈ Site.all documents ∧ report? documents s x = some f := by
  simp [reported]

theorem pairwise_reported (documents : List Document) (s : Settings) :
    (reported documents s).Pairwise fun p q => p.1.Earlier q.1 := by
  refine List.Pairwise.filterMap _ ?_ (Site.pairwise_all documents)
  rintro x y hxy p hp q hq
  obtain ⟨_, -, rfl⟩ := Option.map_eq_some_iff.1 hp
  obtain ⟨_, -, rfl⟩ := Option.map_eq_some_iff.1 hq
  exact hxy

def finding (p : Site × Failure) : Finding :=
  ⟨p.1.document.sourceName, p.1.expression.span, p.2⟩

theorem findingsIn_eq_map_finding (position : Nat) (d : Document) :
    (ofDocuments documents).findingsIn s position d =
      ((d.expressions.zipIdx.map fun (e, index) => Site.mk position d index e).filterMap fun x =>
        (report? documents s x).map (x, ·)).map finding := by
  rw [findingsIn, List.map_filterMap, List.filterMap_map]
  by_cases hgenerated : s.isGenerated d.sourceName
  · simp [hgenerated, report?]
  · rw [if_neg hgenerated]
    conv_lhs => rw [← List.zipIdx_map_fst 0 d.expressions, List.filterMap_map]
    refine List.filterMap_congr fun ⟨e, index⟩ _ => ?_
    simp only [Function.comp_apply, report?, if_neg hgenerated, Option.map_map]
    rfl

theorem findings_eq_mergeSort :
    (ofDocuments documents).findings s =
      ((reported documents s).map finding).mergeSort Finding.precedes := by
  rw [findings, reported, Site.all, List.filterMap_flatMap, List.map_flatMap]
  simp only [findingsIn_eq_map_finding]
  rfl

theorem before_of_precedes {p q : Site × Failure} (h : (finding p).precedes (finding q))
    (hties : (finding q).precedes (finding p) → p.1.Earlier q.1) : p.1.Before q.1 := by
  rw [Finding.precedes_iff] at h hties
  simp only [finding] at h hties
  rcases h with h | ⟨hname, hspan⟩
  · exact .inl h
  refine .inr ⟨hname, ?_⟩
  rcases hspan with hstart | ⟨hstart, hstop⟩
  · exact .inl hstart
  refine .inr ⟨hstart, ?_⟩
  rcases Nat.lt_or_eq_of_le hstop with hstop | hstop
  · exact .inl hstop
  · exact .inr ⟨hstop, hties (.inr ⟨hname.symm, .inr ⟨hstart.symm, Nat.le_of_eq hstop.symm⟩⟩)⟩

/-- Exactly the offending sites are reported, each by one failure, in the order of reports. -/
theorem check_reports_offending_sites (documents : List Document) (s : Settings) :
    ∃ sites : List Site, (∀ x, x ∈ sites ↔ x.Offends documents s) ∧ sites.Pairwise Site.Before ∧
      List.Forall₂ Site.ReportedBy sites ((ofDocuments documents).check s) := by
  let sorted := (reported documents s).mergeSort fun p q => (finding p).precedes (finding q)
  have hmem (p) : p ∈ sorted ↔ p ∈ reported documents s := (List.mergeSort_perm _ _).mem_iff
  have hcheck : (ofDocuments documents).check s = sorted.map (·.2) := by
    have hsort : sorted.map finding =
        ((reported documents s).map finding).mergeSort Finding.precedes :=
      List.map_mergeSort fun _ _ _ _ => rfl
    rw [check, findings_eq_mergeSort, ← hsort, List.map_map]
    rfl
  refine ⟨sorted.map (·.1), fun x => ?_, ?_, ?_⟩
  · rw [List.mem_map]
    constructor
    · rintro ⟨⟨x, f⟩, hx, rfl⟩
      obtain ⟨hall, hreport⟩ := mem_reported_iff.1 ((hmem _).1 hx)
      exact (isSome_report?_iff hall).1 (hreport ▸ rfl)
    · intro hoffends
      have hall := Site.mem_all_iff.2 ⟨hoffends.document, hoffends.expression⟩
      obtain ⟨f, hreport⟩ := Option.isSome_iff_exists.1 ((isSome_report?_iff hall).2 hoffends)
      exact ⟨(x, f), (hmem _).2 (mem_reported_iff.2 ⟨hall, hreport⟩), rfl⟩
  · rw [List.pairwise_map]
    have hsorted := pairwise_mergeSort_stable (fun p q => (finding p).precedes (finding q))
      (fun _ _ _ => Finding.precedes_trans _ _ _) (fun _ _ => Finding.precedes_total _ _)
      (pairwise_reported documents s)
    exact hsorted.imp fun h => before_of_precedes h.1 h.2
  · rw [hcheck, List.forall₂_map_left_iff, List.forall₂_map_right_iff, List.forall₂_same]
    intro ⟨x, f⟩ hx
    obtain ⟨hall, hreport⟩ := mem_reported_iff.1 ((hmem _).1 hx)
    exact reportedBy_of_report? hall hreport

/-- Expressions of a type that is declared elsewhere, of no known type, and of a union. -/
def initialized : Document where
  path := "shapes.json"
  types := [.marked "Shape" [] [{ name := "A" }]]
  expressions := [⟨.objectCreation, some (.simple "List"), ⟨40, 50⟩⟩,
    ⟨.objectCreation, none, ⟨0, 3⟩⟩, ⟨.defaultExpression, some (.simple "Shape"), ⟨5, 12⟩⟩]

example : ((ofDocuments [initialized]).check {}).map (fun f => (f.code.text, f.span)) =
    [("DU1", some ⟨5, 12⟩)] := by decide +kernel

end Compilation
end CaseUnion
