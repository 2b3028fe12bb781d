import CaseUnion.Document.Format
import CaseUnion.Proofs.StorableDocuments

/-!
# Documents read back

A document that can be stored, and that nests no deeper than a JSON text may, is read back from its
rendered text as it was. Every document that was loaded from data of any format can be stored
(`isStorable_of_asDocument`), so rendering it as JSON and loading it again changes nothing
(`json_reads_back`).
-/

namespace CaseUnion

namespace AttributeArguments

theorem mem_of_mem_place {name : String} {value : AttributeValue} {e : String × AttributeValue}
    {entries : List (String × AttributeValue)} (h : e ∈ place name value entries) :
    e = (name, value) ∨ e ∈ entries := by
  induction entries with
  | nil => exact .inl (List.mem_singleton.1 h)
  | cons first rest ih =>
    rw [place] at h
    split at h
    · exact List.mem_cons.1 h
    · split at h
      · exact (List.mem_cons.1 h).imp_right (List.mem_cons_of_mem first)
      · rcases List.mem_cons.1 h with rfl | h
        · exact .inr List.mem_cons_self
        · exact (ih h).imp_right (List.mem_cons_of_mem first)

theorem mem_of_mem_foldl {a : AttributeArguments} {e : String × AttributeValue}
    {entries : List (String × AttributeValue)}
    (h : e ∈ (entries.foldl (fun a (name, value) => a.insert name value) a).entries) :
    e ∈ a.entries ∨ e ∈ entries := by
  induction entries generalizing a with
  | nil => exact .inl h
  | cons first rest ih =>
    rcases ih h with h | h
    · rcases mem_of_mem_place h with rfl | h
      · exact .inr List.mem_cons_self
      · exact .inl h
    · exact .inr (List.mem_cons_of_mem first h)

theorem mem_of_mem_ofList {e : String × AttributeValue} {entries : List (String × AttributeValue)}
    (h : e ∈ (ofList entries).entries) : e ∈ entries :=
  (mem_of_mem_foldl h).resolve_left (nomatch ·)

end AttributeArguments

namespace Datum

variable {c : Conventions} {data : Datum}

/-! ### What is loaded can be stored -/

theorem isRead_of_asTypeRef {t : TypeRef} (h : asTypeRef data = .ok t) : t.IsRead := by
  obtain ⟨text, -, h⟩ := bind_eq_ok_iff.1 h
  split at h
  · rename_i type hread
    cases h
    exact ⟨text, TypeRef.parse_eq_ok_iff.2 (TypeRef.read_eq_ok_iff.1 hread)⟩
  · cases h

theorem isRead_void : TypeRef.IsRead .void :=
  @TypeRef.isRead_simple 'v' ['o', 'i', 'd'] (isName_of_all (by decide +kernel))

theorem isUnsigned64_of_asOffset {n : Nat} (h : asOffset data = .ok n) : IsUnsigned64 n := by
  rw [asOffset.eq_def] at h
  split at h
  · split at h
    · rename_i hrange
      cases h
      rwa [Int.toNat_of_nonneg hrange.1]
    · cases h
  · split at h
    · rename_i hword
      cases h
      exact of_decide_eq_true (Option.filter_eq_some_iff.1 hword).2
    · cases h
  · cases h

theorem isStorable_of_asSpan {s : Span} (h : asSpan c data = .ok s) : s.IsStorable := by
  obtain ⟨items, -, h⟩ := bind_eq_ok_iff.1 h
  split at h
  · split at h
    · obtain ⟨start, hstart, h⟩ := bind_eq_ok_iff.1 h
      obtain ⟨stop, hstop, h⟩ := bind_eq_ok_iff.1 h
      cases h
      exact ⟨isUnsigned64_of_asOffset hstart, isUnsigned64_of_asOffset hstop⟩
    · cases h
  · cases h

theorem isStorable_of_asAttributeValue {v : AttributeValue}
    (h : asAttributeValue c data = .ok v) : v.IsStorable := by
  obtain ⟨typed, -, h⟩ := bind_eq_ok_iff.1 h
  split at h
  · cases h
    trivial
  · split at h
    · rename_i hrange
      cases h
      exact hrange
    · cases h
  · cases h
    trivial
  · cases h

theorem isStorable_of_asAttribute {a : Attribute} (h : asAttribute c data = .ok a) :
    a.IsStorable := by
  obtain ⟨f, -, h⟩ := bind_eq_ok_iff.1 h
  obtain ⟨name, -, h⟩ := bind_eq_ok_iff.1 h
  obtain ⟨arguments, harguments, h⟩ := bind_eq_ok_iff.1 h
  cases h
  rcases Fields.exists_of_withDefault harguments with rfl | ⟨d, hd⟩
  · exact fun e he => nomatch he
  · obtain ⟨table, -, hd⟩ := bind_eq_ok_iff.1 hd
    obtain ⟨entries, hentries, hd⟩ := bind_eq_ok_iff.1 hd
    cases hd
    intro e he
    obtain ⟨⟨name, value⟩, -, hvalue⟩ :=
      exists_of_mapM hentries (AttributeArguments.mem_of_mem_ofList he)
    obtain ⟨v, hv, hvalue⟩ := bind_eq_ok_iff.1 hvalue
    cases hvalue
    exact isStorable_of_asAttributeValue hv

theorem isRead_of_optional {f : Fields} {name : String} {type : Option TypeRef}
    (h : f.optional name asTypeRef = .ok type) : ∀ t ∈ type, t.IsRead := fun _ ht =>
  have ⟨_, hd⟩ := Fields.exists_of_optional h ht
  isRead_of_asTypeRef hd

theorem isStorable_of_optional {f : Fields} {name : String} {span : Option Span}
    (h : f.optional name (asSpan c) = .ok span) : ∀ s ∈ span, s.IsStorable := fun _ hs =>
  have ⟨_, hd⟩ := Fields.exists_of_optional h hs
  isStorable_of_asSpan hd

theorem isStorable_of_asParameter {p : Parameter} (h : asParameter c data = .ok p) :
    p.IsStorable := by
  obtain ⟨f, -, h⟩ := bind_eq_ok_iff.1 h
  obtain ⟨name, -, h⟩ := bind_eq_ok_iff.1 h
  obtain ⟨type, htype, h⟩ := bind_eq_ok_iff.1 h
  cases h
  exact isRead_of_optional htype

theorem isStorable_of_asMethod {m : Method} (h : asMethod c data = .ok m) : m.IsStorable := by
  obtain ⟨f, -, h⟩ := bind_eq_ok_iff.1 h
  obtain ⟨name, -, h⟩ := bind_eq_ok_iff.1 h
  obtain ⟨returns, hreturns, h⟩ := bind_eq_ok_iff.1 h
  obtain ⟨parameters, hparameters, h⟩ := bind_eq_ok_iff.1 h
  obtain ⟨span, hspan, h⟩ := bind_eq_ok_iff.1 h
  cases h
  refine ⟨?_, fun p hp => ?_, isStorable_of_optional hspan⟩
  · rcases Fields.exists_of_withDefault hreturns with rfl | ⟨d, hd⟩
    · exact isRead_void
    · exact isRead_of_asTypeRef hd
  · obtain ⟨d, hd⟩ := Fields.exists_of_withDefault_nil hparameters hp
    exact isStorable_of_asParameter hd

theorem isStorable_of_typeHeader {f : Fields} {header : TypeHeader}
    (h : typeHeader c f = .ok header) : header.IsStorable := by
  obtain ⟨name, -, h⟩ := bind_eq_ok_iff.1 h
  obtain ⟨kind, -, h⟩ := bind_eq_ok_iff.1 h
  obtain ⟨accessibility, -, h⟩ := bind_eq_ok_iff.1 h
  obtain ⟨modifiers, -, h⟩ := bind_eq_ok_iff.1 h
  obtain ⟨typeParameters, -, h⟩ := bind_eq_ok_iff.1 h
  obtain ⟨attributes, hattributes, h⟩ := bind_eq_ok_iff.1 h
  obtain ⟨span, hspan, h⟩ := bind_eq_ok_iff.1 h
  cases h
  refine ⟨fun a ha => ?_, isStorable_of_optional hspan⟩
  obtain ⟨d, hd⟩ := Fields.exists_of_withDefault_nil hattributes ha
  exact isStorable_of_asAttribute hd

/-- A member comes from a declaration with one level less, or from a method. -/
theorem of_asMember {levels : Nat} {m : Member} (h : asMember levels c data = .ok m) :
    (∃ t body, m = .type t ∧ asTypeDecl levels c.typed body = .ok t) ∨
      ∃ method body, m = .method method ∧ asMethod c.typed body = .ok method := by
  obtain ⟨⟨kind, body⟩, -, h⟩ := bind_eq_ok_iff.1 h
  simp only at h
  split at h
  · obtain ⟨t, ht, h⟩ := bind_eq_ok_iff.1 h
    cases h
    exact .inl ⟨t, body, rfl, ht⟩
  · split at h
    · obtain ⟨method, hmethod, h⟩ := bind_eq_ok_iff.1 h
      cases h
      exact .inr ⟨method, body, rfl, hmethod⟩
    · cases h

theorem isStorable_of_asTypeDecl {levels : Nat} {t : TypeDecl}
    (h : asTypeDecl levels c data = .ok t) : t.IsStorable := by
  induction levels generalizing c data t with
  | zero => cases h
  | succ levels ih =>
    rw [asTypeDecl_succ] at h
    obtain ⟨f, -, h⟩ := bind_eq_ok_iff.1 h
    obtain ⟨header, hheader, h⟩ := bind_eq_ok_iff.1 h
    obtain ⟨members, hmembers, h⟩ := bind_eq_ok_iff.1 h
    cases h
    refine .mk (isStorable_of_typeHeader hheader) (fun m hm => ?_) fun t ht => ?_
    · obtain ⟨d, hd⟩ := Fields.exists_of_withDefault_nil hmembers hm
      rcases of_asMember hd with ⟨_, _, heq, -⟩ | ⟨_, _, heq, hbody⟩
      · cases heq
      · cases heq
        exact isStorable_of_asMethod hbody
    · obtain ⟨d, hd⟩ := Fields.exists_of_withDefault_nil hmembers ht
      rcases of_asMember hd with ⟨_, _, heq, hbody⟩ | ⟨_, _, heq, -⟩
      · cases heq
        exact ih hbody
      · cases heq

theorem isStorable_of_asExpression {e : Expression} (h : asExpression c data = .ok e) :
    e.IsStorable := by
  obtain ⟨f, -, h⟩ := bind_eq_ok_iff.1 h
  obtain ⟨kind, -, h⟩ := bind_eq_ok_iff.1 h
  obtain ⟨type, htype, h⟩ := bind_eq_ok_iff.1 h
  obtain ⟨span, hspan, h⟩ := bind_eq_ok_iff.1 h
  cases h
  obtain ⟨d, hd⟩ := Fields.exists_of_required hspan
  exact ⟨isRead_of_optional htype, isStorable_of_asSpan hd⟩

theorem isStorable_of_asInvocation {i : Invocation} (h : asInvocation c data = .ok i) :
    i.IsStorable := by
  obtain ⟨f, -, h⟩ := bind_eq_ok_iff.1 h
  obtain ⟨callee, -, h⟩ := bind_eq_ok_iff.1 h
  obtain ⟨method, -, h⟩ := bind_eq_ok_iff.1 h
  obtain ⟨receiver, hreceiver, h⟩ := bind_eq_ok_iff.1 h
  obtain ⟨arguments, -, h⟩ := bind_eq_ok_iff.1 h
  obtain ⟨span, hspan, h⟩ := bind_eq_ok_iff.1 h
  cases h
  obtain ⟨d, hd⟩ := Fields.exists_of_required hspan
  exact ⟨isRead_of_optional hreceiver, isStorable_of_asSpan hd⟩

theorem isStorable_of_asHostDiagnostic {g : HostDiagnostic}
    (h : asHostDiagnostic c data = .ok g) : g.span.IsStorable := by
  obtain ⟨f, -, h⟩ := bind_eq_ok_iff.1 h
  obtain ⟨id, -, h⟩ := bind_eq_ok_iff.1 h
  obtain ⟨span, hspan, h⟩ := bind_eq_ok_iff.1 h
  cases h
  obtain ⟨d, hd⟩ := Fields.exists_of_required hspan
  exact isStorable_of_asSpan hd

/-- Whatever the conventions, a document that was loaded has the path it was loaded with and can be
stored. -/
theorem isStorable_of_asDocument {path : String} {d : Document}
    (h : asDocument path c data = .ok d) : d.path = path ∧ d.IsStorable := by
  obtain ⟨f, -, h⟩ := bind_eq_ok_iff.1 h
  obtain ⟨file, -, h⟩ := bind_eq_ok_iff.1 h
  obtain ⟨nameSpace, -, h⟩ := bind_eq_ok_iff.1 h
  obtain ⟨text, -, h⟩ := bind_eq_ok_iff.1 h
  obtain ⟨types, htypes, h⟩ := bind_eq_ok_iff.1 h
  obtain ⟨expressions, hexpressions, h⟩ := bind_eq_ok_iff.1 h
  obtain ⟨invocations, hinvocations, h⟩ := bind_eq_ok_iff.1 h
  obtain ⟨diagnostics, hdiagnostics, h⟩ := bind_eq_ok_iff.1 h
  cases h
  refine ⟨rfl, fun t ht => ?_, fun e he => ?_, fun i hi => ?_, fun g hg => ?_⟩
  · obtain ⟨d, hd⟩ := Fields.exists_of_withDefault_nil htypes ht
    exact isStorable_of_asTypeDecl hd
  · obtain ⟨d, hd⟩ := Fields.exists_of_withDefault_nil hexpressions he
    exact isStorable_of_asExpression hd
  · obtain ⟨d, hd⟩ := Fields.exists_of_withDefault_nil hinvocations hi
    exact isStorable_of_asInvocation hd
  · obtain ⟨d, hd⟩ := Fields.exists_of_withDefault_nil hdiagnostics hg
    exact isStorable_of_asHostDiagnostic hd

end Datum

/-- How deep the lists and tables of a JSON text may nest. -/
def Json.nestingLimit : Nat := 127

namespace Document

/-- The data of the document nests no deeper than a JSON text may. -/
def FitsJson (d : Document) : Prop := (Datum.ofDocument d).depth ≤ Json.nestingLimit

instance (d : Document) : Decidable d.FitsJson := Nat.decLe _ _

/-- The document has a text, the text is read as the same document, and so the text stays the same
when what was read is written again. -/
def ReadsBack (d : Document) : Prop :=
  ∃ text again, d.render = .ok text ∧ parse d.path text = .ok again ∧ again = d ∧
    again.render = .ok text

/-- The members of a document that fits are held while their kinds are not known. -/
theorem holds_ofMember {d : Document} (h : d.FitsJson) {t : TypeDecl} (ht : t ∈ d.types)
    {m : Member} (hm : m ∈ t.members) : Conventions.json.Holds (Datum.ofMember m) := by
  have htype := Datum.depth_ofTypeDecl_le ht
  have hmember := Datum.depth_ofMember_le hm
  rw [FitsJson, Json.nestingLimit] at h
  exact .inr (decide_eq_true (show (Datum.ofMember m).depth ≤ 123 by omega))

theorem ofPath?_of_extension? {path : String} (h : Path.extension? path = some "json") :
    Format.ofPath? path = some .json := by
  rw [Format.ofPath?, h]
  rfl

theorem render_of_extension? {d : Document} (hpath : Path.extension? d.path = some "json") :
    d.render = .ok (Json.pretty (Datum.ofDocument d)) := by
  rw [render, ofPath?_of_extension? hpath]
  rfl

theorem parse_pretty {d : Document} (hpath : Path.extension? d.path = some "json")
    (h : d.IsStorable) (hfits : d.FitsJson) :
    parse d.path (Json.pretty (Datum.ofDocument d)) = .ok d := by
  have hdata : Format.json.parse? (Json.pretty (Datum.ofDocument d)) =
      some (Datum.ofDocument d) :=
    Json.parse?_pretty (Datum.isExact_ofDocument h)
  have hread : (Datum.ofDocument d).asDocument d.path (.ofFormat .json) = .ok d :=
    Datum.asDocument_ofDocument h fun t ht m hm => holds_ofMember hfits ht hm
  rw [parse, ofPath?_of_extension? hpath]
  simp only [hdata, hread]

theorem readsBack_of_isStorable {d : Document} (hpath : Path.extension? d.path = some "json")
    (h : d.IsStorable) (hfits : d.FitsJson) : d.ReadsBack :=
  have hrender := render_of_extension? hpath
  ⟨_, d, hrender, parse_pretty hpath h hfits, rfl, hrender⟩

theorem exists_of_parse {path text : String} {d : Document} (h : parse path text = .ok d) :
    ∃ c data, Datum.asDocument path c data = .ok d := by
  rw [parse] at h
  split at h
  · cases h
  · rename_i format _
    split at h
    · cases h
    · rename_i data _
      split at h
      · rename_i hread
        cases h
        exact ⟨_, data, hread⟩
      · cases h

/-- Every document with a JSON path that can be stored and fits is read back from its text. Every
document that was loaded, from a text or from data of any format, can be stored. -/
theorem json_reads_back {path : String} (hpath : Path.extension? path = some "json") :
    (∀ d : Document, d.path = path → d.IsStorable → d.FitsJson → d.ReadsBack) ∧
      (∀ c data d, Datum.asDocument path c data = .ok d →
        d.IsStorable ∧ (d.FitsJson → d.ReadsBack)) ∧
      ∀ text d, parse path text = .ok d → d.IsStorable ∧ (d.FitsJson → d.ReadsBack) := by
  have hloaded : ∀ c data d, Datum.asDocument path c data = .ok d →
      d.IsStorable ∧ (d.FitsJson → d.ReadsBack) := by
    intro c data d h
    obtain ⟨rfl, hstorable⟩ := Datum.isStorable_of_asDocument h
    exact ⟨hstorable, readsBack_of_isStorable hpath hstorable⟩
  refine ⟨?_, hloaded, fun text d h => ?_⟩
  · rintro d rfl h hfits
    exact readsBack_of_isStorable hpath h hfits
  · obtain ⟨c, data, h⟩ := exists_of_parse h
    exact hloaded c data d h

/-- A dotted name whose last segment has an argument. -/
def pointType : TypeRef := .named [.mk "Demo" [], .mk "Point" [.simple "T"]]

/-- A case with a parameter of an array type and one without a type. -/
def polygonCase : Method where
  name := "Polygon"
  parameters := [⟨"points", some (.array (.nullable pointType))⟩, ⟨"unknown", none⟩]
  span := some ⟨40, 60⟩

/-- A union with all kinds of arguments at its marker, and types inside of types. -/
def polygonUnion : TypeDecl where
  header :=
    { name := "Shape", kind := .structType, modifiers := { isReadonly := true, isPartial := true }
      typeParameters := ["T"]
      attributes := [⟨"DiscriminatedUnion", ⟨[("AllowDefault", .flag true), ("Level", .number (-7)),
        ("Note", .text "a \"quoted\" note")], by decide⟩⟩]
      span := some ⟨0, 90⟩ }
  members := [.type
    { header := { name := "Cases", kind := .interfaceType, accessibility := .owner }
      members := [.type ⟨{ name := "Inner", kind := .classType }, []⟩, .method polygonCase] }]

/-- A document with every kind of entry and with a text that must be escaped. -/
def polygonDocument : Document where
  path := "shapes.json"
  file := some "Shapes.cs"
  nameSpace := some "Demo"
  text := "// \\ \x01 \t é \n"
  types := [polygonUnion]
  expressions := [⟨.defaultLiteral, some pointType, ⟨100, 107⟩⟩, ⟨.objectCreation, none, ⟨9, 3⟩⟩]
  invocations := [⟨"s", "Match", none, [⟨none, "() => 1"⟩, ⟨some "polygon", "p => 2"⟩], ⟨110, 120⟩⟩]
  diagnostics := [⟨"CS7036", ⟨112, 117⟩⟩]

theorem isRead_pointType : pointType.IsRead := by
  have hnameT : IsName 'T' [] := isName_of_all (by decide +kernel)
  have hnameDemo : IsName 'D' ['e', 'm', 'o'] := isName_of_all (by decide +kernel)
  have hnamePoint : IsName 'P' ['o', 'i', 'n', 't'] :=
    isName_of_all (by decide +kernel)
  have hT : (TypeRef.simple "T").WellFormed :=
    TypeRef.isRead_iff_wellFormed.1 (TypeRef.isRead_simple hnameT)
  have hDemo : TypeSegment.WellFormed (.mk "Demo" []) := .mk hnameDemo nofun
  have hPoint : TypeSegment.WellFormed (.mk "Point" [.simple "T"]) :=
    .mk hnamePoint (by simpa using hT)
  exact TypeRef.isRead_iff_wellFormed.2 (.named (by simp) (by simp [hDemo, hPoint]))

theorem isStorable_polygonCase : polygonCase.IsStorable := by
  have hpoint := TypeRef.isRead_iff_wellFormed.1 isRead_pointType
  have hpoints : TypeRef.IsRead (.array (.nullable pointType)) :=
    TypeRef.isRead_iff_wellFormed.2 (.array (.nullable hpoint))
  refine ⟨Datum.isRead_void, ?_, ?_⟩
  · simp [polygonCase, Parameter.IsStorable, hpoints]
  · simp only [polygonCase, Option.mem_some_iff, forall_eq']
    exact ⟨by decide, by decide⟩

theorem isStorable_polygonUnion : polygonUnion.IsStorable := by
  refine .mk ⟨?_, ?_⟩ (by simp) fun cases hcases => ?_
  · have hlevel : AttributeValue.IsStorable (.number (-7)) := by
      rw [AttributeValue.IsStorable]
      decide
    simp only [List.forall_mem_cons, Attribute.IsStorable]
    exact ⟨⟨trivial, hlevel, trivial, by simp⟩, by simp⟩
  · simp only [Option.mem_some_iff, forall_eq']
    exact ⟨by decide, by decide⟩
  · simp only [List.mem_singleton, Member.type.injEq] at hcases
    subst hcases
    refine .mk ⟨by simp, by simp⟩ (by simpa using isStorable_polygonCase) fun inner hinner => ?_
    simp only [List.mem_cons, Member.type.injEq, List.not_mem_nil, reduceCtorEq, or_false] at hinner
    subst hinner
    exact .mk ⟨by simp, by simp⟩ (by simp) (by simp)

theorem isStorable_polygonDocument : polygonDocument.IsStorable := by
  refine ⟨?_, ?_, ?_, ?_⟩
  · simp [polygonDocument, isStorable_polygonUnion]
  · simp only [polygonDocument, List.forall_mem_cons]
    exact ⟨⟨by simpa using isRead_pointType, by decide, by decide⟩,
      ⟨by simp, by decide, by decide⟩, by simp⟩
  · simp only [polygonDocument, List.forall_mem_cons]
    exact ⟨⟨by simp, by decide, by decide⟩, by simp⟩
  · simp only [polygonDocument, List.forall_mem_cons]
    exact ⟨⟨by decide, by decide⟩, by simp⟩

theorem json_reads_back_polygonDocument :
    Path.extension? "shapes.json" = some "json" ∧ polygonDocument.IsStorable ∧
      polygonDocument.FitsJson ∧ polygonDocument.ReadsBack := by
  have hpath : Path.extension? "shapes.json" = some "json" := by decide +kernel
  have hfits : polygonDocument.FitsJson := by decide +kernel
  have hreads := (json_reads_back hpath).1 polygonDocument rfl isStorable_polygonDocument hfits
  exact ⟨hpath, isStorable_polygonDocument, hfits, hreads⟩

end Document
end CaseUnion
