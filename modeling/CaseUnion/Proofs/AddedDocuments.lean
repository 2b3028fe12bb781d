import CaseUnion.Generation
import CaseUnion.Proofs.KeptUnions

/-!
# Added documents

Documents may be added to a generation at its end. The declarations in them come behind those there
are and are numbered on (`entries_append`), and the result for a declaration is the same as in an
index of its own documents alone (`extractEach_append`). So nothing that was generated changes, and
what an added document contributes is missing only where its definition has a union already:
`adding_extends`.
-/

namespace CaseUnion

/-! ### The numbering of declarations -/

/-- The place behind a number of documents with a number of declarations. -/
def Place.behind (documents ids : Nat) (p : Place) : Place :=
  { p with
    document := documents + p.document
    next := ids + p.next
    parent := p.parent.map (ids + ·) }

namespace Entry

/-- The entry as it is behind a number of documents with a number of declarations. -/
def behind (documents ids : Nat) (e : Entry) : Entry :=
  { e with
    document := documents + e.document
    parent := e.parent.map (ids + ·) }

variable (documents ids : Nat)

mutual

theorem ofDecl_behind : ∀ (p : Place) (decl : TypeDecl),
    ofDecl (p.behind documents ids) decl = (ofDecl p decl).map (behind documents ids)
  | p, ⟨header, members⟩ => by
    rw [ofDecl, ofDecl, List.map_cons, ← ofMembers_behind]
    rfl

theorem ofMembers_behind : ∀ (p : Place) (members : List Member),
    ofMembers (p.behind documents ids) members = (ofMembers p members).map (behind documents ids)
  | p, [] => by rw [ofMembers, ofMembers, List.map_nil]
  | p, .method _ :: rest => by rw [ofMembers, ofMembers, ofMembers_behind]
  | p, .type decl :: rest => by
    rw [ofMembers, ofMembers, List.map_append, ← ofMembers_behind, ofDecl_behind, List.length_map,
      Place.behind, Place.behind, Nat.add_assoc]

end

theorem ofDecls_behind (p : Place) (decls : List TypeDecl) :
    ofDecls (p.behind documents ids) decls = (ofDecls p decls).map (behind documents ids) := by
  induction decls generalizing p with
  | nil => rw [ofDecls, ofDecls, List.map_nil]
  | cons decl rest ih =>
    rw [ofDecls, ofDecls, List.map_append, ← ih, ofDecl_behind, List.length_map,
      Place.behind, Place.behind, Nat.add_assoc]

theorem ofDocuments_behind (position next : Nat) (ds : List Document) :
    ofDocuments (documents + position) (ids + next) ds =
      (ofDocuments position next ds).map (behind documents ids) := by
  induction ds generalizing position next with
  | nil => rw [ofDocuments, ofDocuments, List.map_nil]
  | cons d rest ih =>
    have hdecls := ofDecls_behind documents ids ⟨position, next, none, [], d.nameSpace.getD ""⟩
      d.types
    rw [Place.behind, Option.map_none] at hdecls
    rw [ofDocuments, ofDocuments, List.map_append, ← ih, hdecls, List.length_map, Nat.add_assoc,
      Nat.add_assoc]

theorem ofDocuments_append (position next : Nat) (ds more : List Document) :
    ofDocuments position next (ds ++ more) = ofDocuments position next ds ++
      ofDocuments (position + ds.length) (next + (ofDocuments position next ds).length) more := by
  induction ds generalizing position next with
  | nil => rfl
  | cons d rest ih =>
    rw [List.cons_append, ofDocuments, ofDocuments, ih, List.append_assoc, List.length_append,
      List.length_cons, Nat.add_assoc position, Nat.add_comm 1, Nat.add_assoc next]

end Entry

namespace Compilation

variable {documents more : List Document} {s : Settings} {e : Entry}

/-- The declarations in documents keep their numbers, and those in more documents follow. -/
theorem entries_append (documents more : List Document) :
    (ofDocuments (documents ++ more)).entries = (ofDocuments documents).entries ++
      (ofDocuments more).entries.map
        (.behind documents.length (ofDocuments documents).entries.length) := by
  have hmore := Entry.ofDocuments_behind documents.length
    (ofDocuments documents).entries.length 0 0 more
  simp only [Nat.add_zero] at hmore
  rw [ofDocuments, Entry.ofDocuments_append, Nat.zero_add, Nat.zero_add]
  exact congrArg _ hmore

/-! ### The results -/

theorem documentOf?_append_left (he : e ∈ (ofDocuments documents).entries) :
    (ofDocuments (documents ++ more)).documentOf? e = (ofDocuments documents).documentOf? e := by
  obtain ⟨d, hd⟩ := exists_documentOf? he
  obtain ⟨hlt, -⟩ := List.getElem?_eq_some_iff.1 hd
  exact List.getElem?_append_left hlt

theorem documentOf?_behind (ids : Nat) (e : Entry) :
    (ofDocuments (documents ++ more)).documentOf? (e.behind documents.length ids) =
      (ofDocuments more).documentOf? e := by
  rw [documentOf?, ofDocuments, Entry.behind, List.getElem?_append_right (Nat.le_add_right _ _),
    Nat.add_sub_cancel_left]
  rfl

/-- Extraction reads a declaration and its own document only. -/
theorem extractEach_append (documents more : List Document) (s : Settings) :
    (ofDocuments (documents ++ more)).extractEach s =
      (ofDocuments documents).extractEach s ++ (ofDocuments more).extractEach s := by
  rw [extractEach, entries_append, List.filterMap_append, List.filterMap_map]
  congr 1
  · refine List.filterMap_congr fun e he => ?_
    rw [documentOf?_append_left he]
  · refine List.filterMap_congr fun e _ => ?_
    rw [Function.comp_apply, documentOf?_behind]
    rfl

theorem resultAt?_append_left {id : Nat} (h : id < ((ofDocuments documents).extractEach s).length) :
    (ofDocuments (documents ++ more)).resultAt? s id = (ofDocuments documents).resultAt? s id := by
  rw [← getElem?_extractEach, ← getElem?_extractEach, extractEach_append,
    List.getElem?_append_left h]

theorem resultAt?_append_right (id : Nat) :
    (ofDocuments (documents ++ more)).resultAt? s
        (((ofDocuments documents).extractEach s).length + id) =
      (ofDocuments more).resultAt? s id := by
  rw [← getElem?_extractEach, ← getElem?_extractEach, extractEach_append,
    List.getElem?_append_right (Nat.le_add_right _ _), Nat.add_sub_cancel_left]

theorem lt_length_of_resultAt? {id : Nat} {x : String × Except Failure (Option UnionType)}
    (h : (ofDocuments documents).resultAt? s id = some x) :
    id < ((ofDocuments documents).extractEach s).length := by
  rw [← getElem?_extractEach] at h
  exact (List.getElem?_eq_some_iff.1 h).1

/-! ### The unions -/

theorem keepsAt_append_left {id : Nat} {x : String × UnionType} :
    (id < ((ofDocuments documents).extractEach s).length ∧
        (ofDocuments (documents ++ more)).KeepsAt s id x) ↔
      (ofDocuments documents).KeepsAt s id x := by
  have hat {other : Nat} (hle : other ≤ id)
      (hlt : id < ((ofDocuments documents).extractEach s).length) :
      (ofDocuments (documents ++ more)).resultAt? s other =
        (ofDocuments documents).resultAt? s other :=
    resultAt?_append_left (Nat.lt_of_le_of_lt hle hlt)
  constructor
  · rintro ⟨hlt, hresult, hcases, hfirst⟩
    refine ⟨by rwa [hat le_rfl hlt] at hresult, hcases, fun other hother v hv => ?_⟩
    exact hfirst other hother v (by rwa [hat hother.le hlt])
  · rintro ⟨hresult, hcases, hfirst⟩
    have hlt := lt_length_of_resultAt? hresult
    refine ⟨hlt, by rwa [hat le_rfl hlt], hcases, fun other hother v hv => ?_⟩
    exact hfirst other hother v (by rwa [hat hother.le hlt] at hv)

/-- A declaration in more documents gives way to those of its definition in front. -/
theorem keepsAt_append_right {kept : List (String × UnionType)}
    (hkept : ByPosition ((ofDocuments documents).KeepsAt s) kept) {id : Nat}
    {x : String × UnionType} :
    (ofDocuments (documents ++ more)).KeepsAt s
        (((ofDocuments documents).extractEach s).length + id) x ↔
      (ofDocuments more).KeepsAt s id x ∧ x.1 ∉ kept.map (·.1) := by
  constructor
  · rintro ⟨hresult, hcases, hfirst⟩
    refine ⟨⟨by rwa [resultAt?_append_right] at hresult, hcases, fun other hother v hv => ?_⟩, ?_⟩
    · apply hfirst _ (Nat.add_lt_add_left hother _) v
      rwa [resultAt?_append_right]
    · intro hmem
      obtain ⟨⟨key, u⟩, hx, rfl⟩ := List.mem_map.1 hmem
      obtain ⟨first, hkeeps⟩ := hkept.mem_iff.1 hx
      have hlt := lt_length_of_resultAt? hkeeps.result
      refine hkeeps.cases_ne_nil (hfirst first (Nat.lt_add_right id hlt) u ?_)
      rw [resultAt?_append_left hlt, hkeeps.result]
  · rintro ⟨⟨hresult, hcases, hfirst⟩, hfree⟩
    refine ⟨by rwa [resultAt?_append_right], hcases, fun other hother v hv => ?_⟩
    rcases Nat.lt_or_ge other ((ofDocuments documents).extractEach s).length with hlt | hge
    · rw [resultAt?_append_left hlt] at hv
      -- A union with cases in front would have its definition among the keys that are kept.
      by_contra hne
      obtain ⟨first, -, w, hkeeps⟩ := exists_keepsAt hv hne
      exact hfree (List.mem_map.2 ⟨(x.1, w), hkept.mem_iff.2 ⟨first, hkeeps⟩, rfl⟩)
    · obtain ⟨behind, rfl⟩ := Nat.exists_eq_add_of_le hge
      rw [resultAt?_append_right] at hv
      exact hfirst behind (Nat.lt_of_add_lt_add_left hother) v hv

theorem keepsAt_append {kept added : List (String × UnionType)}
    (hkept : ByPosition ((ofDocuments documents).KeepsAt s) kept)
    (hadded : ByPosition ((ofDocuments more).KeepsAt s) added) :
    ByPosition ((ofDocuments (documents ++ more)).KeepsAt s)
      (kept ++ added.filter fun x => x.1 ∉ kept.map (·.1)) := by
  apply ByPosition.append
  case hxs => exact hkept.congr fun _ _ => keepsAt_append_left.symm
  case hys =>
    refine (hadded.filter _).congr fun id x => ?_
    rw [keepsAt_append_right hkept, decide_eq_true_iff]

theorem exists_keepsAt_extractAll (documents : List Document) (s : Settings) :
    ∃ kept : List (String × UnionType),
      ((ofDocuments documents).extractAll s).unions = kept.map (·.2) ∧
        ByPosition ((ofDocuments documents).KeepsAt s) kept := by
  obtain ⟨kept, hunions, hkept⟩ :=
    Extraction.exists_leading_collect [] ((ofDocuments documents).extractEach s)
  exact ⟨kept, hunions, hkept.congr fun _ _ => leads_extractEach_iff⟩

end Compilation

/-! ### The failures -/

theorem Extraction.failures_collect_append
    (results more : List (String × Except Failure (Option UnionType))) :
    (collect [] (results ++ more)).failures =
      (collect [] results).failures ++ (collect [] more).failures := by
  apply (failures_collect [] (results ++ more)).unique
  apply ByPosition.append (n := results.length)
  case hxs =>
    refine (failures_collect [] results).congr fun i f => ?_
    constructor
    · rintro ⟨key, h⟩
      obtain ⟨hlt, -⟩ := List.getElem?_eq_some_iff.1 h
      exact ⟨hlt, key, by rwa [List.getElem?_append_left hlt]⟩
    · rintro ⟨hlt, key, h⟩
      exact ⟨key, by rwa [List.getElem?_append_left hlt] at h⟩
  case hys =>
    refine (failures_collect [] more).congr fun i f => ?_
    rw [List.getElem?_append_right (Nat.le_add_right _ i), Nat.add_sub_cancel_left]

/-! ### Generations -/

namespace Generation

/-- The generation with more documents at its end. -/
def adding (g : Generation) (more : List Document) : Generation :=
  { g with documents := g.documents ++ more }

/-- What there is stays as it is and where it is. Behind it comes what the added documents give
by themselves, without the unions of definitions that have one. -/
structure ExtendedBy (g : Generation) (more : List Document) : Prop where
  declarations : (g.adding more).compilation.entries = g.compilation.entries ++
    (Compilation.ofDocuments more).entries.map
      (.behind g.documents.length g.compilation.entries.length)
  results : (g.adding more).compilation.extractEach g.settings =
    g.compilation.extractEach g.settings ++ (Compilation.ofDocuments more).extractEach g.settings
  unions : ∃ kept added : List (String × UnionType),
    ByPosition (g.compilation.KeepsAt g.settings) kept ∧
    ByPosition ((Compilation.ofDocuments more).KeepsAt g.settings) added ∧
    g.extraction.unions = kept.map (·.2) ∧
    ((Compilation.ofDocuments more).extractAll g.settings).unions = added.map (·.2) ∧
    (g.adding more).extraction.unions =
      g.extraction.unions ++ (added.filter fun x => x.1 ∉ kept.map (·.1)).map (·.2)
  failures : (g.adding more).extraction.failures =
    g.extraction.failures ++ ((Compilation.ofDocuments more).extractAll g.settings).failures
  files : (g.extraction.unions.map fun u => (u.fileName g.settings, u.emit g.settings)) <+:
    (g.adding more).extraction.unions.map fun u => (u.fileName g.settings, u.emit g.settings)
  units : g.units <+: (g.adding more).units

theorem adding_extends (g : Generation) (more : List Document) : g.ExtendedBy more := by
  obtain ⟨kept, hunions, hkept⟩ := Compilation.exists_keepsAt_extractAll g.documents g.settings
  obtain ⟨added, hown, hadded⟩ := Compilation.exists_keepsAt_extractAll more g.settings
  obtain ⟨both, hboth, hall⟩ :=
    Compilation.exists_keepsAt_extractAll (g.documents ++ more) g.settings
  have happend : (g.adding more).extraction.unions =
      g.extraction.unions ++ (added.filter fun x => x.1 ∉ kept.map (·.1)).map (·.2) := by
    rw [extraction, compilation, adding, hboth, extraction, compilation, hunions, ← List.map_append]
    exact congrArg _ (hall.unique (Compilation.keepsAt_append hkept hadded))
  have hprefix : g.extraction.unions <+: (g.adding more).extraction.unions := by
    rw [happend]
    exact List.prefix_append _ _
  constructor
  case declarations => exact Compilation.entries_append g.documents more
  case results => exact Compilation.extractEach_append g.documents more g.settings
  case unions => exact ⟨kept, added, hkept, hadded, hunions, hown, happend⟩
  case failures =>
    have happend := Extraction.failures_collect_append (g.compilation.extractEach g.settings)
      ((Compilation.ofDocuments more).extractEach g.settings)
    rwa [compilation, ← Compilation.extractEach_append] at happend
  case files => exact hprefix.map _
  case units => exact hprefix.map _

end Generation
end CaseUnion
