import CaseUnion.Proofs.StoredFields
import CaseUnion.Proofs.TypeRendering

/-!
# Documents that can be stored

A document can be stored if its type references are ones that a text can have, the integers in its
attributes have 64 bits and so have its offsets (`Document.IsStorable`). Everything in it is then
written as exact data, and is read back from that data as it was (`asDocument_ofDocument`). The
types inside of members are decided before members are read, so members must not nest deeper than
data may be held (`Conventions.Holds`).
-/

namespace CaseUnion

/-! ### What can be stored -/

/-- The reference is what some text is read as. -/
def TypeRef.IsRead (t : TypeRef) : Prop := ∃ text, TypeRef.parse text = .ok t

theorem TypeRef.isRead_iff_wellFormed {t : TypeRef} : t.IsRead ↔ t.WellFormed :=
  ⟨fun ⟨_, h⟩ => wellFormed_of_parse h, fun h => ⟨t.render, parse_render_of_wellFormed h⟩⟩

theorem isName_of_all {first : Char} {rest : List Char}
    (h : (isNameStart first && rest.all isNamePart) = true) : IsName first rest := by
  rw [Bool.and_eq_true, List.all_eq_true] at h
  exact h

theorem TypeRef.isRead_simple {first : Char} {rest : List Char} (h : IsName first rest) :
    (TypeRef.simple (.ofList (first :: rest))).IsRead := by
  refine isRead_iff_wellFormed.2 (.named (List.cons_ne_nil _ _) fun s hs => ?_)
  obtain rfl := List.mem_singleton.1 hs
  exact .mk h nofun

structure Span.IsStorable (s : Span) : Prop where
  start : IsUnsigned64 s.start
  stop : IsUnsigned64 s.stop

def AttributeValue.IsStorable : AttributeValue → Prop
  | .number value => IsSigned64 value
  | _ => True

def Attribute.IsStorable (a : Attribute) : Prop := ∀ e ∈ a.arguments.entries, e.2.IsStorable

def Parameter.IsStorable (p : Parameter) : Prop := ∀ t ∈ p.type, t.IsRead

structure Method.IsStorable (m : Method) : Prop where
  returns : m.returns.IsRead
  parameters : ∀ p ∈ m.parameters, p.IsStorable
  span : ∀ s ∈ m.span, s.IsStorable

structure TypeHeader.IsStorable (h : TypeHeader) : Prop where
  attributes : ∀ a ∈ h.attributes, a.IsStorable
  span : ∀ s ∈ h.span, s.IsStorable

/-- The header, every method and every type inside can be stored. -/
inductive TypeDecl.IsStorable : TypeDecl → Prop
  | mk {header : TypeHeader} {members : List Member} (hheader : header.IsStorable)
      (methods : ∀ m, .method m ∈ members → m.IsStorable)
      (types : ∀ d, .type d ∈ members → IsStorable d) : IsStorable ⟨header, members⟩

structure Expression.IsStorable (e : Expression) : Prop where
  type : ∀ t ∈ e.type, t.IsRead
  span : e.span.IsStorable

structure Invocation.IsStorable (i : Invocation) : Prop where
  receiver : ∀ t ∈ i.receiver, t.IsRead
  span : i.span.IsStorable

structure Document.IsStorable (d : Document) : Prop where
  types : ∀ t ∈ d.types, t.IsStorable
  expressions : ∀ e ∈ d.expressions, e.IsStorable
  invocations : ∀ i ∈ d.invocations, i.IsStorable
  diagnostics : ∀ g ∈ d.diagnostics, g.span.IsStorable

namespace Datum

variable {c : Conventions}

/-! ### Parts of a document -/

theorem asOffset_int {n : Nat} (h : IsUnsigned64 n) : asOffset (.int n) = .ok n := by
  rw [asOffset, if_pos h, Int.toNat_natCast]

theorem asSpan_pair (start stop : Datum) :
    asSpan c (.list [start, stop]) = (do return ⟨← start.asOffset, ← stop.asOffset⟩) := rfl

theorem asSpan_ofSpan {s : Span} (h : s.IsStorable) : asSpan c (ofSpan s) = .ok s := by
  rw [ofSpan, asSpan_pair, asOffset_int h.start, asOffset_int h.stop]
  rfl

theorem isExact_ofSpan {s : Span} (h : s.IsStorable) : (ofSpan s).IsExact := by
  refine .list (List.forall_mem_cons.2 ⟨.int (.inr h.start), ?_⟩)
  exact List.forall_mem_singleton.2 (.int (.inr h.stop))

theorem asTypeRef_ofTypeRef {t : TypeRef} (h : t.IsRead) : asTypeRef (ofTypeRef t) = .ok t := by
  have hparse := TypeRef.parse_render_of_wellFormed (TypeRef.isRead_iff_wellFormed.1 h)
  have hread : TypeRef.read t.render.toList = .ok t :=
    TypeRef.read_eq_ok_iff.2 (TypeRef.parse_eq_ok_iff.1 hparse)
  simp only [asTypeRef, ofTypeRef, asText, ok_bind, hread]

theorem asModifiers_words (m : Modifiers) : asModifiers (.list (m.words.map .text)) = .ok m := by
  have hwords : asListOf asText (.list (m.words.map .text)) = .ok m.words :=
    asListOf_map fun _ _ => rfl
  rw [asModifiers, hwords, ok_bind, Modifiers.ofWords_words]

theorem asChoice_keyword (k : TypeKind) :
    asChoice c TypeKind.keyword TypeKind.all (.text k.keyword) = .ok k := by
  cases k <;> rfl

theorem asChoice_accessibility (a : Accessibility) :
    asChoice c Accessibility.keyword Accessibility.all (.text a.keyword) = .ok a := by
  cases a <;> rfl

theorem asChoice_expressionKind (k : ExpressionKind) :
    asChoice c ExpressionKind.word ExpressionKind.all (.text k.word) = .ok k := by
  cases k <;> rfl

theorem isExact_ofAttributeValue {v : AttributeValue} (h : v.IsStorable) :
    (ofAttributeValue v).IsExact := by
  cases v with
  | flag value => exact .bool value
  | number value => exact .int (.inl h)
  | text value => exact .text value

theorem asAttributeValue_ofAttributeValue {v : AttributeValue} (h : v.IsStorable) :
    asAttributeValue c (ofAttributeValue v) = .ok v := by
  have hheld : c.Holds (ofAttributeValue v) := by
    cases v <;> exact .inr (by simp [ofAttributeValue, depth])
  rw [asAttributeValue, asTyped_of_isExact (isExact_ofAttributeValue h) hheld, ok_bind]
  cases v with
  | flag value => rfl
  | number value => exact if_pos h
  | text value => rfl

end Datum

namespace AttributeArguments

/-- A name behind all others is placed at the end. -/
theorem place_eq_append {name : String} {value : AttributeValue}
    {entries : List (String × AttributeValue)} (h : ∀ e ∈ entries, e.1 < name) :
    place name value entries = entries ++ [(name, value)] := by
  induction entries with
  | nil => rfl
  | cons e rest ih =>
    obtain ⟨he, hrest⟩ := List.forall_mem_cons.1 h
    have hne : name ≠ e.1 := fun hname => String.lt_irrefl _ (hname ▸ he)
    rw [place, if_neg (String.lt_asymm he), if_neg hne, ih hrest, List.cons_append]

theorem entries_foldl_insert {a : AttributeArguments} {entries : List (String × AttributeValue)}
    (h : (a.entries ++ entries).Pairwise fun x y => x.1 < y.1) :
    (entries.foldl (fun a (name, value) => a.insert name value) a).entries =
      a.entries ++ entries := by
  induction entries generalizing a with
  | nil => simp
  | cons e rest ih =>
    have hinsert : (a.insert e.1 e.2).entries = a.entries ++ [e] := by
      refine place_eq_append fun x hx => ?_
      exact (List.pairwise_append.1 h).2.2 x hx e List.mem_cons_self
    have hrest := @ih (a.insert e.1 e.2) (by rwa [hinsert, List.append_assoc])
    rw [List.foldl_cons, hrest, hinsert, List.append_assoc]
    rfl

/-- Arguments are what their entries are read as. -/
theorem ofList_entries (a : AttributeArguments) : ofList a.entries = a := by
  have hentries : (ofList a.entries).entries = a.entries := entries_foldl_insert a.sorted
  cases ha : ofList a.entries
  cases a
  simp_all

end AttributeArguments

namespace Datum

variable {c : Conventions}

theorem asAttributeArguments_ofEntries {a : AttributeArguments}
    (h : ∀ e ∈ a.entries, e.2.IsStorable) :
    asAttributeArguments c (.table (a.entries.map fun (name, v) => (name, ofAttributeValue v))) =
      .ok a := by
  rw [asAttributeArguments, asTable, ok_bind]
  refine bind_eq_ok_iff.2 ⟨a.entries, mapM_eq_ok fun e he => ?_, ?_⟩
  · simp only [asAttributeValue_ofAttributeValue (h e he)]
    rfl
  · rw [AttributeArguments.ofList_entries]
    rfl

theorem isExact_ofAttribute {a : Attribute} (h : a.IsStorable) : (ofAttribute a).IsExact := by
  refine .table_cons (.text a.name) ?_
  split
  · exact .table nofun
  · refine .table_cons (.table (List.forall_mem_map.2 fun e he => ?_)) (.table nofun)
    exact isExact_ofAttributeValue (h e he)

/-- The entries of an attribute that has arguments. -/
def attributeEntries (a : Attribute) : Fields :=
  [("name", .text a.name),
    ("args", .table (a.arguments.entries.map fun (name, v) => (name, ofAttributeValue v)))]

theorem ofAttribute_of_ne_nil {a : Attribute} (h : a.arguments.entries ≠ []) :
    ofAttribute a = .table (attributeEntries a) := by
  rw [ofAttribute]
  split
  · contradiction
  · rfl

theorem asAttribute_of_eq_nil (name : String) :
    asAttribute c (ofAttribute ⟨name, .empty⟩) = .ok ⟨name, .empty⟩ := by
  have hnames : ["name"].Sublist ["name", "args"] := by decide
  have hfields : fields c ["name", "args"] (ofAttribute ⟨name, .empty⟩) =
      .ok [("name", .text name)] := fields_table hnames (by decide)
  rw [asAttribute, hfields]
  rfl

theorem asAttribute_ofAttribute {a : Attribute} (h : a.IsStorable) :
    asAttribute c (ofAttribute a) = .ok a := by
  by_cases hempty : a.arguments.entries = []
  · obtain ⟨name, arguments⟩ := a
    obtain rfl : arguments = .empty := by
      rw [← AttributeArguments.ofList_entries arguments, hempty]
      rfl
    exact asAttribute_of_eq_nil name
  · have hfields : fields c ["name", "args"] (.table (attributeEntries a)) =
        .ok (attributeEntries a) := fields_table (.refl ["name", "args"]) (by decide)
    have hname : (attributeEntries a).required "name" asText = .ok a.name := rfl
    have hargs : (attributeEntries a).withDefault "args" .empty (asAttributeArguments c) =
        .ok a.arguments := Fields.withDefault_of_lookup rfl (asAttributeArguments_ofEntries h)
    rw [ofAttribute_of_ne_nil hempty, asAttribute, hfields, ok_bind, hname, ok_bind, hargs]
    rfl

def parameterEntries (p : Parameter) : Fields :=
  ("name", .text p.name) :: optionalEntry "type" ofTypeRef p.type

theorem isExact_ofParameter (p : Parameter) : (ofParameter p).IsExact :=
  .table_cons (.text p.name) (isExact_optionalEntry fun t _ => .text t.render)

theorem asParameter_ofParameter {p : Parameter} (h : p.IsStorable) :
    asParameter c (ofParameter p) = .ok p := by
  have hfields : fields c ["name", "type"] (ofParameter p) = .ok (parameterEntries p) :=
    fields_table ((names_optionalEntry p.type).cons_cons _) (by decide)
  have hname : (parameterEntries p).required "name" asText = .ok p.name := rfl
  have htype : (parameterEntries p).optional "type" asTypeRef = .ok p.type :=
    Fields.optional_of_lookup ofTypeRef (by simp [parameterEntries, List.lookup_cons])
      (fun _ => rfl) fun t ht => asTypeRef_ofTypeRef (h t ht)
  rw [asParameter, hfields, ok_bind, hname, ok_bind, htype]
  rfl

theorem names_methodEntries (m : Method) :
    ((methodEntries m).map (·.1)).Sublist ["name", "returns", "parameters", "span"] := by
  rw [methodEntries, List.map_append]
  exact (List.Sublist.refl ["name", "returns", "parameters"]).append (names_optionalEntry _)

theorem isExact_methodEntries {m : Method} (h : m.IsStorable) :
    IsExact (.table (methodEntries m)) := by
  have hparameters : IsExact (.list (m.parameters.map ofParameter)) :=
    .list_map fun p _ => isExact_ofParameter p
  refine .table_append ?_ ?_
  · exact .table_cons (.text _) (.table_cons (.text _) (.table_cons hparameters (.table nofun)))
  · exact isExact_optionalEntry fun s hs => isExact_ofSpan (h.span s hs)

theorem asMethod_methodEntries {m : Method} (h : m.IsStorable) :
    asMethod c (.table (methodEntries m)) = .ok m := by
  have hname : (methodEntries m).required "name" asText = .ok m.name := rfl
  have hreturns : (methodEntries m).withDefault "returns" .void asTypeRef = .ok m.returns :=
    Fields.withDefault_of_lookup rfl (asTypeRef_ofTypeRef h.returns)
  have hparameters : (methodEntries m).withDefault "parameters" [] (asListOf (asParameter c)) =
      .ok m.parameters :=
    Fields.withDefault_of_lookup rfl
      (asListOf_map fun p hp => asParameter_ofParameter (h.parameters p hp))
  have hspan : (methodEntries m).optional "span" (asSpan c) = .ok m.span :=
    Fields.optional_of_lookup ofSpan
      (by simp [methodEntries, List.lookup_cons])
      (fun _ => rfl) fun s hs => asSpan_ofSpan (h.span s hs)
  rw [asMethod, fields_table (names_methodEntries m) (by decide), ok_bind, hname, ok_bind, hreturns,
    ok_bind, hparameters, ok_bind, hspan]
  rfl

/-! ### Declarations -/

theorem ofMembers_eq_map (members : List Member) : ofMembers members = members.map ofMember := by
  induction members with
  | nil => rw [ofMembers, List.map_nil]
  | cons m rest ih => rw [ofMembers, ih, List.map_cons]

theorem typeEntries_eq (header : TypeHeader) (members : List Member) :
    typeEntries ⟨header, members⟩ = headerEntries header ++
      nonEmptyEntry "members" ofMember members ++ optionalEntry "span" ofSpan header.span := by
  rw [typeEntries, ofMembers_eq_map]
  cases members <;> rfl

theorem names_typeEntries (t : TypeDecl) : ((typeEntries t).map (·.1)).Sublist typeFieldNames := by
  obtain ⟨header, members⟩ := t
  rw [typeEntries_eq, headerEntries]
  simp only [List.map_append]
  exact (((((List.Sublist.refl ["name", "kind", "accessibility", "modifiers"]).append
    (names_nonEmptyEntry _)).append (names_nonEmptyEntry _)).append
    (names_nonEmptyEntry _)).append (names_optionalEntry _))

theorem typeHeader_typeEntries {t : TypeDecl} (h : t.header.IsStorable) :
    typeHeader c (typeEntries t) = .ok t.header := by
  obtain ⟨header, members⟩ := t
  have hname : (typeEntries ⟨header, members⟩).required "name" asText = .ok header.name := rfl
  have hkind : (typeEntries ⟨header, members⟩).required "kind"
      (asChoice c TypeKind.keyword TypeKind.all) = .ok header.kind :=
    Fields.required_of_lookup rfl (asChoice_keyword header.kind)
  have haccessibility : (typeEntries ⟨header, members⟩).withDefault "accessibility" .assembly
      (asChoice c Accessibility.keyword Accessibility.all) = .ok header.accessibility :=
    Fields.withDefault_of_lookup rfl (asChoice_accessibility header.accessibility)
  have hmodifiers : (typeEntries ⟨header, members⟩).withDefault "modifiers" {} asModifiers =
      .ok header.modifiers :=
    Fields.withDefault_of_lookup rfl (asModifiers_words header.modifiers)
  have hparameters : (typeEntries ⟨header, members⟩).withDefault "type-parameters" []
      (asListOf asText) = .ok header.typeParameters :=
    Fields.withDefault_nil_of_lookup .text
      (by simp [typeEntries_eq, headerEntries, List.lookup_append, List.lookup_cons]) fun _ _ => rfl
  have hattributes : (typeEntries ⟨header, members⟩).withDefault "attributes" []
      (asListOf (asAttribute c)) = .ok header.attributes :=
    Fields.withDefault_nil_of_lookup ofAttribute
      (by simp [typeEntries_eq, headerEntries, List.lookup_append, List.lookup_cons]) fun a ha =>
        asAttribute_ofAttribute (h.attributes a ha)
  have hspan : (typeEntries ⟨header, members⟩).optional "span" (asSpan c) = .ok header.span :=
    Fields.optional_of_lookup ofSpan
      (by simp [typeEntries_eq, headerEntries, List.lookup_append, List.lookup_cons])
      (fun _ => rfl) fun s hs => asSpan_ofSpan (h.span s hs)
  rw [typeHeader, hname, ok_bind, hkind, ok_bind, haccessibility, ok_bind, hmodifiers, ok_bind,
    hparameters, ok_bind, hattributes, ok_bind, hspan]
  rfl

/-- A tag does not nest. -/
theorem depth_ofMember_type (t : TypeDecl) : (ofMember (.type t)).depth = (ofTypeDecl t).depth := by
  rw [ofMember, ofTypeDecl, depth, depth, depthOfEntries]
  exact congrArg (· + 1) (Nat.zero_max _)

theorem depth_ofMember_method (m : Method) :
    (ofMember (.method m)).depth = (Datum.table (methodEntries m)).depth := by
  rw [ofMember, depth, depth, depthOfEntries]
  exact congrArg (· + 1) (Nat.zero_max _)

theorem depth_ofMember_le {t : TypeDecl} {m : Member} (h : m ∈ t.members) :
    (ofMember m).depth + 2 ≤ (ofTypeDecl t).depth := by
  obtain ⟨header, members⟩ := t
  rw [ofTypeDecl, typeEntries_eq]
  exact depth_le_of_mem_nonEmptyEntry
    (fun e he => List.mem_append_left _ (List.mem_append_right _ he)) h

theorem isExact_headerEntries {h : TypeHeader} (hh : h.IsStorable) :
    IsExact (.table (headerEntries h)) := by
  have hmodifiers : IsExact (.list (h.modifiers.words.map .text)) := .list_map fun w _ => .text w
  refine .table_append (.table_append ?_ ?_) ?_
  · exact .table_cons (.text _) (.table_cons (.text _) (.table_cons (.text _)
      (.table_cons hmodifiers (.table nofun))))
  · exact isExact_nonEmptyEntry fun w _ => .text w
  · exact isExact_nonEmptyEntry fun a ha => isExact_ofAttribute (hh.attributes a ha)

theorem isExact_ofTypeDecl {t : TypeDecl} (h : t.IsStorable) : (ofTypeDecl t).IsExact := by
  induction h with
  | @mk header members hheader methods types ih =>
    rw [ofTypeDecl, typeEntries_eq]
    refine .table_append (.table_append (isExact_headerEntries hheader) ?_) ?_
    · refine isExact_nonEmptyEntry fun m hm => ?_
      cases m with
      | type d =>
        rw [ofMember]
        exact .table_cons (.text _) (ih d hm)
      | method m =>
        rw [ofMember]
        exact .table_cons (.text _) (isExact_methodEntries (methods m hm))
    · exact isExact_optionalEntry fun s hs => isExact_ofSpan (hheader.span s hs)

/-- A member is told from its tag, which no other field is named like. -/
theorem tagged_of_names {kind : String} {f : Fields} {known : List String}
    (hnames : (f.map (·.1)).Sublist known) (htag : memberTag ∉ known)
    (hexact : IsExact (.table f)) (hheld : c.Holds (.table f)) :
    tagged c (.table (("member", .text kind) :: f)) = .ok (kind, .table f) := by
  have hnone : ∀ e ∈ f, ¬ e.1 = memberTag := fun e he hname =>
    htag (hname ▸ hnames.subset (List.mem_map_of_mem he))
  have htags : (("member", Datum.text kind) :: f).partition (·.1 == memberTag) =
      ([("member", .text kind)], f) := by
    have hfirst : f.filter (·.1 == memberTag) = [] :=
      List.filter_eq_nil_iff.2 fun e he => by simpa using hnone e he
    have hsecond : f.filter (not ∘ (·.1 == memberTag)) = f :=
      List.filter_eq_self.2 fun e he => by simpa using hnone e he
    rw [List.partition_eq_filter_filter, List.filter_cons_of_pos (by rfl),
      List.filter_cons_of_neg (by exact Bool.false_ne_true), hfirst, hsecond]
  rw [tagged, htags]
  simp only [asTyped_of_isExact hexact hheld]
  rfl

/-- A member is read as its kind says. -/
def asMember (levels : Nat) (c : Conventions) (d : Datum) : Except Fault Member := do
  let (kind, body) ← d.tagged c
  if kind = "type" then return .type (← asTypeDecl levels c.typed body)
  else if kind = "method" then return .method (← body.asMethod c.typed)
  else .error (.mismatch "a member")

theorem asTypeDecl_succ (levels : Nat) (d : Datum) : asTypeDecl (levels + 1) c d = (do
    let f ← d.fields c typeFieldNames
    let header ← typeHeader c f
    let members ← f.withDefault "members" [] (asListOf (asMember levels c))
    return ⟨header, members⟩) := rfl

theorem asMember_method {levels : Nat} {m : Method} (h : m.IsStorable)
    (hheld : c.Holds (ofMember (.method m))) :
    asMember levels c (ofMember (.method m)) = .ok (.method m) := by
  rw [Conventions.Holds, depth_ofMember_method] at hheld
  rw [ofMember, asMember, tagged_of_names (names_methodEntries m) (by decide)
    (isExact_methodEntries h) hheld, ok_bind]
  simp only [asMethod_methodEntries h]
  rfl

theorem asMember_type {levels : Nat} {t : TypeDecl} (h : t.IsStorable)
    (hheld : c.Holds (ofMember (.type t)))
    (hread : asTypeDecl levels c.typed (ofTypeDecl t) = .ok t) :
    asMember levels c (ofMember (.type t)) = .ok (.type t) := by
  rw [Conventions.Holds, depth_ofMember_type] at hheld
  rw [ofMember, asMember, tagged_of_names (names_typeEntries t) (by decide)
    (isExact_ofTypeDecl h) hheld, ok_bind]
  rw [ofTypeDecl] at hread
  simp only [hread]
  rfl

/-- A declaration is read back if there are as many levels as it nests deep. -/
theorem asTypeDecl_ofTypeDecl {t : TypeDecl} (h : t.IsStorable) {levels : Nat}
    (hlevels : (ofTypeDecl t).depth ≤ levels) (hheld : ∀ m ∈ t.members, c.Holds (ofMember m)) :
    asTypeDecl levels c (ofTypeDecl t) = .ok t := by
  induction h generalizing levels c with
  | @mk header members hheader methods types ih =>
    obtain ⟨levels, rfl⟩ : ∃ k, levels = k + 1 := by
      refine Nat.exists_eq_add_one.2 (Nat.lt_of_lt_of_le ?_ hlevels)
      rw [ofTypeDecl, depth]
      exact Nat.succ_pos _
    have hmembers : (typeEntries ⟨header, members⟩).withDefault "members" []
        (asListOf (asMember levels c)) = .ok members := by
      refine Fields.withDefault_nil_of_lookup ofMember
        (by simp [typeEntries_eq, headerEntries, List.lookup_append, List.lookup_cons])
        fun m hm => ?_
      cases m with
      | method m => exact asMember_method (methods m hm) (hheld _ hm)
      | type t =>
        refine asMember_type (types t hm) (hheld _ hm) (ih t hm ?_ fun _ _ => .inl rfl)
        have hdepth := depth_ofMember_le (t := ⟨header, members⟩) hm
        rw [depth_ofMember_type] at hdepth
        omega
    have hfields : fields c typeFieldNames (ofTypeDecl ⟨header, members⟩) =
        .ok (typeEntries ⟨header, members⟩) :=
      fields_table (names_typeEntries _) (by decide)
    rw [asTypeDecl_succ, hfields, ok_bind, typeHeader_typeEntries hheader, ok_bind, hmembers]
    rfl

/-! ### Expressions and calls -/

def expressionEntries (e : Expression) : Fields :=
  [("kind", .text e.kind.word)] ++ optionalEntry "type" ofTypeRef e.type ++
    [("span", ofSpan e.span)]

theorem isExact_ofExpression {e : Expression} (h : e.IsStorable) : (ofExpression e).IsExact := by
  refine .table_append (.table_append (.table_cons (.text _) (.table nofun)) ?_) ?_
  · exact isExact_optionalEntry fun t _ => .text t.render
  · exact .table_cons (isExact_ofSpan h.span) (.table nofun)

theorem names_expressionEntries (e : Expression) :
    ((expressionEntries e).map (·.1)).Sublist ["kind", "type", "span"] := by
  simp only [expressionEntries, List.map_append]
  exact ((List.Sublist.refl ["kind"]).append (names_optionalEntry _)).append (.refl ["span"])

theorem asExpression_ofExpression {e : Expression} (h : e.IsStorable) :
    asExpression c (ofExpression e) = .ok e := by
  have hfields : fields c ["kind", "type", "span"] (ofExpression e) = .ok (expressionEntries e) :=
    fields_table (names_expressionEntries e) (by decide)
  have hkind : (expressionEntries e).required "kind"
      (asChoice c ExpressionKind.word ExpressionKind.all) = .ok e.kind :=
    Fields.required_of_lookup rfl (asChoice_expressionKind e.kind)
  have htype : (expressionEntries e).optional "type" asTypeRef = .ok e.type :=
    Fields.optional_of_lookup ofTypeRef
      (by simp [expressionEntries, List.lookup_append, List.lookup_cons]) (fun _ => rfl)
      fun t ht => asTypeRef_ofTypeRef (h.type t ht)
  have hspan : (expressionEntries e).required "span" (asSpan c) = .ok e.span :=
    Fields.required_of_lookup
      (by simp [expressionEntries, List.lookup_append, List.lookup_cons]) (asSpan_ofSpan h.span)
  rw [asExpression, hfields, ok_bind, hkind, ok_bind, htype, ok_bind, hspan]
  rfl

def argumentEntries (a : Argument) : Fields :=
  optionalEntry "name" .text a.name ++ [("expression", .text a.expression)]

theorem isExact_ofArgument (a : Argument) : (ofArgument a).IsExact :=
  .table_append (isExact_optionalEntry fun n _ => .text n)
    (.table_cons (.text a.expression) (.table nofun))

theorem asArgument_ofArgument (a : Argument) : asArgument c (ofArgument a) = .ok a := by
  have hnames : ((argumentEntries a).map (·.1)).Sublist ["name", "expression"] := by
    rw [argumentEntries, List.map_append]
    exact (names_optionalEntry _).append (.refl ["expression"])
  have hfields : fields c ["name", "expression"] (ofArgument a) = .ok (argumentEntries a) :=
    fields_table hnames (by decide)
  have hname : (argumentEntries a).optional "name" asText = .ok a.name :=
    Fields.optional_of_lookup .text
      (by simp [argumentEntries, List.lookup_append, List.lookup_cons]) (fun _ => rfl)
      fun _ _ => rfl
  have hexpression : (argumentEntries a).required "expression" asText = .ok a.expression :=
    Fields.required_of_lookup (d := .text a.expression)
      (by simp [argumentEntries, List.lookup_append]) rfl
  rw [asArgument, hfields, ok_bind, hname, ok_bind, hexpression]
  rfl

def invocationEntries (i : Invocation) : Fields :=
  [("callee", .text i.callee), ("method", .text i.method)] ++
    optionalEntry "receiver" ofTypeRef i.receiver ++
    [("arguments", .list (i.arguments.map ofArgument)), ("span", ofSpan i.span)]

theorem isExact_ofInvocation {i : Invocation} (h : i.IsStorable) : (ofInvocation i).IsExact := by
  have harguments : IsExact (.list (i.arguments.map ofArgument)) :=
    .list_map fun a _ => isExact_ofArgument a
  refine .table_append (.table_append ?_ ?_) ?_
  · exact .table_cons (.text _) (.table_cons (.text _) (.table nofun))
  · exact isExact_optionalEntry fun t _ => .text t.render
  · exact .table_cons harguments (.table_cons (isExact_ofSpan h.span) (.table nofun))

theorem names_invocationEntries (i : Invocation) : ((invocationEntries i).map (·.1)).Sublist
    ["callee", "method", "receiver", "arguments", "span"] := by
  simp only [invocationEntries, List.map_append]
  exact ((List.Sublist.refl ["callee", "method"]).append (names_optionalEntry _)).append
    (.refl ["arguments", "span"])

theorem asInvocation_ofInvocation {i : Invocation} (h : i.IsStorable) :
    asInvocation c (ofInvocation i) = .ok i := by
  have hfields : fields c ["callee", "method", "receiver", "arguments", "span"] (ofInvocation i) =
      .ok (invocationEntries i) :=
    fields_table (names_invocationEntries i) (by decide)
  have hcallee : (invocationEntries i).required "callee" asText = .ok i.callee := rfl
  have hmethod : (invocationEntries i).required "method" asText = .ok i.method := rfl
  have hreceiver : (invocationEntries i).optional "receiver" asTypeRef = .ok i.receiver :=
    Fields.optional_of_lookup ofTypeRef
      (by simp [invocationEntries, List.lookup_append, List.lookup_cons]) (fun _ => rfl)
      fun t ht => asTypeRef_ofTypeRef (h.receiver t ht)
  have harguments : (invocationEntries i).withDefault "arguments" [] (asListOf (asArgument c)) =
      .ok i.arguments :=
    Fields.withDefault_of_lookup
      (by simp [invocationEntries, List.lookup_append, List.lookup_cons])
      (asListOf_map fun a _ => asArgument_ofArgument a)
  have hspan : (invocationEntries i).required "span" (asSpan c) = .ok i.span :=
    Fields.required_of_lookup
      (by simp [invocationEntries, List.lookup_append, List.lookup_cons]) (asSpan_ofSpan h.span)
  rw [asInvocation, hfields, ok_bind, hcallee, ok_bind, hmethod, ok_bind, hreceiver, ok_bind,
    harguments, ok_bind, hspan]
  rfl

theorem isExact_ofHostDiagnostic {g : HostDiagnostic} (h : g.span.IsStorable) :
    (ofHostDiagnostic g).IsExact :=
  .table_cons (.text g.id) (.table_cons (isExact_ofSpan h) (.table nofun))

theorem asHostDiagnostic_ofHostDiagnostic {g : HostDiagnostic} (h : g.span.IsStorable) :
    asHostDiagnostic c (ofHostDiagnostic g) = .ok g := by
  have hfields : fields c ["id", "span"] (ofHostDiagnostic g) =
      .ok [("id", .text g.id), ("span", ofSpan g.span)] :=
    fields_table (.refl ["id", "span"]) (by decide)
  have hid : Fields.required [("id", .text g.id), ("span", ofSpan g.span)] "id" asText =
      .ok g.id := rfl
  have hspan : Fields.required [("id", .text g.id), ("span", ofSpan g.span)] "span" (asSpan c) =
      .ok g.span :=
    Fields.required_of_lookup rfl (asSpan_ofSpan h)
  rw [asHostDiagnostic, hfields, ok_bind, hid, ok_bind, hspan]
  rfl

/-! ### Documents -/

def documentEntries (d : Document) : Fields :=
  optionalEntry "file" .text d.file ++ optionalEntry "namespace" .text d.nameSpace ++
    [("text", .text d.text)] ++ nonEmptyEntry "types" ofTypeDecl d.types ++
    nonEmptyEntry "expressions" ofExpression d.expressions ++
    nonEmptyEntry "invocations" ofInvocation d.invocations ++
    nonEmptyEntry "diagnostics" ofHostDiagnostic d.diagnostics

def documentFieldNames : List String :=
  ["file", "namespace", "text", "types", "expressions", "invocations", "diagnostics"]

theorem isExact_ofDocument {d : Document} (h : d.IsStorable) : (ofDocument d).IsExact := by
  refine .table_append (.table_append (.table_append (.table_append (.table_append
    (.table_append ?_ ?_) ?_) ?_) ?_) ?_) ?_
  · exact isExact_optionalEntry fun n _ => .text n
  · exact isExact_optionalEntry fun n _ => .text n
  · exact .table_cons (.text _) (.table nofun)
  · exact isExact_nonEmptyEntry fun t ht => isExact_ofTypeDecl (h.types t ht)
  · exact isExact_nonEmptyEntry fun e he => isExact_ofExpression (h.expressions e he)
  · exact isExact_nonEmptyEntry fun i hi => isExact_ofInvocation (h.invocations i hi)
  · exact isExact_nonEmptyEntry fun g hg => isExact_ofHostDiagnostic (h.diagnostics g hg)

theorem names_documentEntries (d : Document) :
    ((documentEntries d).map (·.1)).Sublist documentFieldNames := by
  simp only [documentEntries, List.map_append]
  exact ((((((names_optionalEntry _).append (names_optionalEntry _)).append
    (.refl ["text"])).append (names_nonEmptyEntry _)).append (names_nonEmptyEntry _)).append
    (names_nonEmptyEntry _)).append (names_nonEmptyEntry _)

theorem depth_ofTypeDecl_le {d : Document} {t : TypeDecl} (h : t ∈ d.types) :
    (ofTypeDecl t).depth + 2 ≤ (ofDocument d).depth := by
  have hentries : ∀ e ∈ nonEmptyEntry "types" ofTypeDecl d.types, e ∈ documentEntries d :=
    fun e he => List.mem_append_left _ (List.mem_append_left _ (List.mem_append_left _
      (List.mem_append_right _ he)))
  exact depth_le_of_mem_nonEmptyEntry hentries h

/-- A document that can be stored is read back from its data. -/
theorem asDocument_ofDocument {d : Document} (h : d.IsStorable)
    (hheld : ∀ t ∈ d.types, ∀ m ∈ t.members, c.Holds (ofMember m)) :
    asDocument d.path c (ofDocument d) = .ok d := by
  have hfields : fields c documentFieldNames (ofDocument d) = .ok (documentEntries d) :=
    fields_table (names_documentEntries d) (by decide)
  have hfile : (documentEntries d).optional "file" asText = .ok d.file :=
    Fields.optional_of_lookup .text
      (by simp [documentEntries, List.lookup_append, List.lookup_cons]) (fun _ => rfl)
      fun _ _ => rfl
  have hnameSpace : (documentEntries d).optional "namespace" asText = .ok d.nameSpace :=
    Fields.optional_of_lookup .text
      (by simp [documentEntries, List.lookup_append, List.lookup_cons]) (fun _ => rfl)
      fun _ _ => rfl
  have htext : (documentEntries d).withDefault "text" "" asText = .ok d.text :=
    Fields.withDefault_of_lookup (d := .text d.text)
      (by simp [documentEntries, List.lookup_append]) rfl
  have htypes : (documentEntries d).withDefault "types" []
      (asListOf (asTypeDecl (ofDocument d).depth c)) = .ok d.types := by
    refine Fields.withDefault_nil_of_lookup ofTypeDecl
      (by simp [documentEntries, List.lookup_append, List.lookup_cons]) fun t ht => ?_
    have hdepth := depth_ofTypeDecl_le ht
    exact asTypeDecl_ofTypeDecl (h.types t ht) (by omega) (hheld t ht)
  have hexpressions : (documentEntries d).withDefault "expressions" []
      (asListOf (asExpression c)) = .ok d.expressions :=
    Fields.withDefault_nil_of_lookup ofExpression
      (by simp [documentEntries, List.lookup_append, List.lookup_cons])
      fun e he => asExpression_ofExpression (h.expressions e he)
  have hinvocations : (documentEntries d).withDefault "invocations" []
      (asListOf (asInvocation c)) = .ok d.invocations :=
    Fields.withDefault_nil_of_lookup ofInvocation
      (by simp [documentEntries, List.lookup_append, List.lookup_cons])
      fun i hi => asInvocation_ofInvocation (h.invocations i hi)
  have hdiagnostics : (documentEntries d).withDefault "diagnostics" []
      (asListOf (asHostDiagnostic c)) = .ok d.diagnostics :=
    Fields.withDefault_nil_of_lookup ofHostDiagnostic
      (by simp [documentEntries, List.lookup_append, List.lookup_cons])
      fun g hg => asHostDiagnostic_ofHostDiagnostic (h.diagnostics g hg)
  rw [documentFieldNames] at hfields
  rw [asDocument, hfields, ok_bind, hfile, ok_bind, hnameSpace, ok_bind, htext, ok_bind, htypes,
    ok_bind, hexpressions, ok_bind, hinvocations, ok_bind, hdiagnostics]
  rfl

end Datum
end CaseUnion
