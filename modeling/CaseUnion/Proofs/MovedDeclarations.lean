import CaseUnion.Proofs.DeclaredUnions
import CaseUnion.Proofs.DocumentEditing
import CaseUnion.Proofs.ReceiverUnions

/-!
# Declarations that have moved

Where a declaration stands does not matter for its union. `withoutSpans` commutes with what
extraction looks at: the attributes and the case list of a declaration (`eligible?_withoutSpans`),
its cases (`readCases_withoutSpan`), and the listing of all declarations
(`map_withoutSpans_ofDocuments`).

So if two lists of documents declare the same apart from spans, a reference means the same
declarations in both, and each gives the same union, or fails for the same cause
(`agrees_of_sameDeclarations`).
-/

namespace CaseUnion

/-- The method put at the beginning of the text. -/
def Method.withoutSpan (m : Method) : Method := { m with span := m.span.map fun _ => ⟨0, 0⟩ }

theorem Member.allWithoutSpans_eq_map (members : List Member) :
    Member.allWithoutSpans members = members.map Member.withoutSpans := by
  induction members with
  | nil => rfl
  | cons m rest ih => rw [Member.allWithoutSpans, List.map_cons, ih]

namespace TypeDecl

variable (t : TypeDecl)

theorem header_withoutSpans :
    t.withoutSpans.header = { t.header with span := t.header.span.map fun _ => ⟨0, 0⟩ } := by
  obtain ⟨header, members⟩ := t
  rw [withoutSpans]

@[simp]
theorem name_withoutSpans : t.withoutSpans.name = t.name := by
  rw [name, header_withoutSpans, name]

@[simp]
theorem kind_withoutSpans : t.withoutSpans.kind = t.kind := by
  rw [kind, header_withoutSpans, kind]

@[simp]
theorem typeParameters_withoutSpans : t.withoutSpans.typeParameters = t.typeParameters := by
  rw [typeParameters, header_withoutSpans, typeParameters]

@[simp]
theorem attribute?_withoutSpans (name : String) :
    t.withoutSpans.attribute? name = t.attribute? name := by
  rw [attribute?, header_withoutSpans, attribute?]

theorem members_withoutSpans : t.withoutSpans.members = t.members.map Member.withoutSpans := by
  obtain ⟨header, members⟩ := t
  rw [withoutSpans, Member.allWithoutSpans_eq_map]

theorem nestedTypes_withoutSpans :
    t.withoutSpans.nestedTypes = t.nestedTypes.map withoutSpans := by
  rw [nestedTypes, nestedTypes, members_withoutSpans, List.filterMap_map, List.map_filterMap]
  refine List.filterMap_congr fun m _ => ?_
  cases m <;> rfl

theorem methods_withoutSpans : t.withoutSpans.methods = t.methods.map Method.withoutSpan := by
  rw [methods, methods, members_withoutSpans, List.filterMap_map, List.map_filterMap]
  refine List.filterMap_congr fun m _ => ?_
  cases m <;> rfl

end TypeDecl

def Eligible.withoutSpans (e : Eligible) : Eligible := ⟨e.marker, e.caseList.withoutSpans⟩

theorem Eligible.caseMethods_withoutSpans (e : Eligible) :
    e.withoutSpans.caseMethods = e.caseMethods.map Method.withoutSpan := by
  rw [caseMethods, withoutSpans, TypeDecl.methods_withoutSpans, List.filter_map, caseMethods]
  rfl

theorem Settings.eligible?_withoutSpans (s : Settings) (t : TypeDecl) :
    s.eligible? t.withoutSpans = (s.eligible? t).map Eligible.withoutSpans := by
  have hcaseList : s.isCaseList ∘ TypeDecl.withoutSpans = s.isCaseList := by
    funext other
    simp [isCaseList]
  simp only [eligible?, TypeDecl.attribute?_withoutSpans, TypeDecl.kind_withoutSpans,
    TypeDecl.header_withoutSpans, TypeDecl.nestedTypes_withoutSpans, List.filter_map, hcaseList]
  cases t.attribute? s.marker with
  | none => rfl
  | some marker =>
    dsimp only
    split
    · rcases t.nestedTypes.filter s.isCaseList with _ | ⟨caseList, _ | ⟨_, _⟩⟩ <;> rfl
    · rfl

theorem readCases_withoutSpan (unionName : String) (inScope seen : List String)
    (methods : List Method) :
    readCases unionName inScope seen (methods.map Method.withoutSpan) =
      (readCases unionName inScope seen methods).mapError fun offence =>
        (offence.1, offence.2.map fun _ => ⟨0, 0⟩) := by
  induction methods generalizing seen with
  | nil => rfl
  | cons m rest ih =>
    rw [List.map_cons, readCases, readCases]
    simp only [Method.withoutSpan, ih]
    split
    · rfl
    · cases readParameters unionName m.name inScope [] m.parameters with
      | error cause => rfl
      | ok parameters => cases readCases unionName inScope (m.name :: seen) rest <;> rfl

namespace Entry

def withoutSpans (e : Entry) : Entry :=
  { e with decl := e.decl.withoutSpans, enclosing := e.enclosing.map TypeDecl.withoutSpans }

/-- What does not depend on spans is the same for declarations that differ in them only. -/
theorem bind_congr {α : Type} {f g : Entry → Option α} (hf : ∀ e, f e = g e.withoutSpans)
    {e? e'? : Option Entry} (h : e'?.map withoutSpans = e?.map withoutSpans) :
    e'?.bind f = e?.bind f := by
  have hbind := congrArg (Option.bind · g) h
  simpa only [Option.bind_map, Function.comp_def, ← hf] using hbind

theorem scope_withoutSpans (e : Entry) : e.withoutSpans.scope = e.scope := by
  simp only [scope, withoutSpans, List.flatMap_append, List.flatMap_map, List.flatMap_cons,
    TypeDecl.typeParameters_withoutSpans]

end Entry

namespace Descriptor

theorem chain_withoutSpans (nameSpace : Option String) (parents : List Descriptor)
    (outer : List TypeDecl) :
    chain nameSpace parents (outer.map TypeDecl.withoutSpans) = chain nameSpace parents outer := by
  induction outer generalizing parents with
  | nil => rfl
  | cons t rest ih =>
    rw [List.map_cons, chain, chain, TypeDecl.header_withoutSpans, ih]
    rfl

theorem ofEntry_withoutSpans (e : Entry) (nameSpace : Option String) :
    ofEntry e.withoutSpans nameSpace = ofEntry e nameSpace := by
  rw [ofEntry, ofEntry, Entry.withoutSpans, chain_withoutSpans, TypeDecl.header_withoutSpans]
  rfl

end Descriptor

/-- The first cause of a failure. -/
def Failure.cause? (f : Failure) : Option Cause := f.root?.map (·.1)

/-- A result of extraction, with nothing but the cause of a failure. -/
def Extraction.outcome (result : Except Failure (Option UnionType)) :
    Except (Option Cause) (Option UnionType) :=
  result.mapError Failure.cause?

/-- A result as `outcome` has it, with the key of the declaration. -/
def Extraction.keyedOutcome (x : String × Except Failure (Option UnionType)) :
    String × Except (Option Cause) (Option UnionType) :=
  (x.1, outcome x.2)

theorem Extraction.join_outcome_eq_some_iff {result : Except Failure (Option UnionType)}
    {u : UnionType} : (outcome result).toOption.join = some u ↔ result = .ok (some u) := by
  rcases result with failure | _ | v
  · exact iff_of_false nofun nofun
  · exact iff_of_false nofun nofun
  · simp [outcome, Except.mapError, Except.toOption]

namespace Settings

variable {s : Settings} {d d' : Document} {e e' : Entry}

theorem outcome_extract_withoutSpans (h : d'.nameSpace = d.nameSpace) :
    Extraction.outcome (s.extract d' e.withoutSpans) = Extraction.outcome (s.extract d e) := by
  have heligible : s.eligible? e.withoutSpans.decl =
      (s.eligible? e.decl).map Eligible.withoutSpans :=
    s.eligible?_withoutSpans e.decl
  rw [extract, extract, heligible]
  cases s.eligible? e.decl with
  | none => rfl
  | some eligible =>
    simp only [Option.map_some, Eligible.caseMethods_withoutSpans, readCases_withoutSpan,
      Descriptor.ofEntry_withoutSpans, Entry.scope_withoutSpans, h]
    cases readCases (Descriptor.ofEntry e d.nameSpace).qualified e.scope []
        eligible.caseMethods with
    | error offence => rfl
    | ok cases =>
      simp only [Except.mapError, Entry.withoutSpans, TypeDecl.name_withoutSpans]
      rfl

/-- Of a document extraction needs the namespace only, and of a declaration no span. -/
theorem outcome_extract_congr (h : d'.nameSpace = d.nameSpace)
    (he : e'.withoutSpans = e.withoutSpans) :
    Extraction.outcome (s.extract d' e') = Extraction.outcome (s.extract d e) := by
  rw [← outcome_extract_withoutSpans (e := e') rfl, he, outcome_extract_withoutSpans h]

end Settings

/-! ### The listing of all declarations -/

def Place.withoutSpans (p : Place) : Place :=
  { p with enclosing := p.enclosing.map TypeDecl.withoutSpans }

namespace Entry

mutual

theorem ofDecl_withoutSpans : ∀ (p : Place) (t : TypeDecl),
    ofDecl p.withoutSpans t.withoutSpans = (ofDecl p t).map withoutSpans
  | p, ⟨header, members⟩ => by
    have hmembers := ofMembers_withoutSpans ⟨p.document, p.next + 1, some p.next,
      p.enclosing ++ [⟨header, members⟩], innerKey p.path header⟩ members
    rw [Place.withoutSpans, List.map_append, List.map_singleton] at hmembers
    rw [TypeDecl.withoutSpans] at hmembers ⊢
    rw [ofDecl, ofDecl, List.map_cons]
    exact congrArg₂ List.cons (by rw [withoutSpans, TypeDecl.withoutSpans]; rfl) hmembers

theorem ofMembers_withoutSpans : ∀ (p : Place) (members : List Member),
    ofMembers p.withoutSpans (Member.allWithoutSpans members) =
      (ofMembers p members).map withoutSpans
  | _, [] => rfl
  | p, .method m :: rest => by
    rw [Member.allWithoutSpans, Member.withoutSpans, ofMembers, ofMembers,
      ofMembers_withoutSpans p rest]
  | p, .type t :: rest => by
    have hrest := ofMembers_withoutSpans { p with next := p.next + (ofDecl p t).length } rest
    rw [Member.allWithoutSpans, Member.withoutSpans, ofMembers, ofMembers,
      ofDecl_withoutSpans p t, List.length_map, List.map_append, ← hrest]
    rfl

end

theorem ofDecls_withoutSpans (p : Place) (types : List TypeDecl) :
    ofDecls p.withoutSpans (types.map TypeDecl.withoutSpans) =
      (ofDecls p types).map withoutSpans := by
  induction types generalizing p with
  | nil => rfl
  | cons t rest ih =>
    have hrest := ih { p with next := p.next + (ofDecl p t).length }
    rw [List.map_cons, ofDecls, ofDecls, ofDecl_withoutSpans, List.length_map, List.map_append,
      ← hrest]
    rfl

end Entry

/-- Two documents are known by the same names and declare the same types, apart from where these
stand. -/
structure Document.SameDeclarations (d d' : Document) : Prop where
  path : d'.path = d.path
  file : d'.file = d.file
  nameSpace : d'.nameSpace = d.nameSpace
  types : d'.types.map TypeDecl.withoutSpans = d.types.map TypeDecl.withoutSpans

namespace Document.SameDeclarations

variable {d d' d'' : Document}

theorem refl (d : Document) : d.SameDeclarations d := ⟨rfl, rfl, rfl, rfl⟩

theorem trans (h : d.SameDeclarations d') (h' : d'.SameDeclarations d'') : d.SameDeclarations d'' :=
  ⟨h'.path.trans h.path, h'.file.trans h.file, h'.nameSpace.trans h.nameSpace,
    h'.types.trans h.types⟩

end Document.SameDeclarations

theorem Entry.map_withoutSpans_ofDocuments {documents documents' : List Document}
    (h : List.Forall₂ Document.SameDeclarations documents documents') (position next : Nat) :
    (ofDocuments position next documents').map withoutSpans =
      (ofDocuments position next documents).map withoutSpans := by
  induction h generalizing position next with
  | nil => rfl
  | @cons d d' rest rest' hhead _ ih =>
    have hdecls := ofDecls_withoutSpans ⟨position, next, none, [], d.nameSpace.getD ""⟩ d.types
    have hdecls' := ofDecls_withoutSpans ⟨position, next, none, [], d.nameSpace.getD ""⟩ d'.types
    rw [hhead.types, hdecls] at hdecls'
    have hlength := congrArg List.length hdecls'
    rw [List.length_map, List.length_map] at hlength
    rw [ofDocuments, ofDocuments, hhead.nameSpace, List.map_append, List.map_append, hdecls',
      hlength, ih]

/-! ### What a compilation knows -/

namespace Extraction

theorem collect_congr {results results' : List (String × Except Failure (Option UnionType))}
    (h : results'.map keyedOutcome = results.map keyedOutcome) (taken : List String) :
    (collect taken results').unions = (collect taken results).unions ∧
      (collect taken results').failures.map Failure.cause? =
        (collect taken results).failures.map Failure.cause? := by
  induction results generalizing results' taken with
  | nil =>
    obtain rfl := List.map_eq_nil_iff.1 h
    exact ⟨rfl, rfl⟩
  | cons x rest ih =>
    obtain ⟨x', rest', rfl, hhead, hrest⟩ := List.map_eq_cons_iff.1 h
    obtain ⟨key, result⟩ := x
    obtain ⟨key', result'⟩ := x'
    obtain ⟨rfl, hresult⟩ := Prod.mk.inj hhead
    cases result with
    | error failure =>
      cases result' with
      | error failure' =>
        have hcause : failure'.cause? = failure.cause? := Except.error.inj hresult
        obtain ⟨hunions, hfailures⟩ := ih hrest taken
        exact ⟨hunions, congrArg₂ List.cons hcause hfailures⟩
      | ok union? => cases hresult
    | ok union? =>
      cases result' with
      | error failure' => cases hresult
      | ok union?' =>
        obtain rfl : union?' = union? := Except.ok.inj hresult
        cases union?' with
        | none => exact ih hrest taken
        | some u =>
          rw [collect, collect]
          split
          · exact ih hrest taken
          · obtain ⟨hunions, hfailures⟩ := ih hrest (key' :: taken)
            exact ⟨congrArg (u :: ·) hunions, hfailures⟩

end Extraction

namespace Compilation

/-- Two compilations index the same declarations, apart from where these stand: a reference means
the same ids, and the declarations with an id are both eligible or both not, and both give the same
union or fail for the same cause. So the same unions are emitted, and a call dispatches over the
same union. -/
structure Agrees (s : Settings) (c c' : Compilation) : Prop where
  lookup : ∀ type nameSpace, c'.declarationsOf type nameSpace = c.declarationsOf type nameSpace
  eligible : ∀ id, (c'.entryOf? id).bind (fun e => (s.eligible? e.decl).map Eligible.withoutSpans) =
    (c.entryOf? id).bind fun e => (s.eligible? e.decl).map Eligible.withoutSpans
  result : ∀ id, (c'.resultAt? s id).map Extraction.keyedOutcome =
    (c.resultAt? s id).map Extraction.keyedOutcome
  unions : (c'.extractAll s).unions = (c.extractAll s).unions
  failures : (c'.extractAll s).failures.map Failure.cause? =
    (c.extractAll s).failures.map Failure.cause?
  receiver : ∀ d call, c'.receiverUnion? s d call = c.receiverUnion? s d call

section
variable {documents documents' : List Document} {s : Settings}

theorem idsOf_eq_of_keys {c c' : Compilation} (h : c'.entries.map (·.key) = c.entries.map (·.key))
    (key : String) : c'.idsOf key = c.idsOf key := by
  have hids (c : Compilation) : c.idsOf key =
      ((c.entries.map (·.key)).zipIdx.filter (·.1 == key)).map (·.2) := by
    rw [List.zipIdx_map, List.filter_map, List.map_map]
    rfl
  rw [hids, hids, h]

theorem declarationsOf_eq_of_keys {c c' : Compilation}
    (h : c'.entries.map (·.key) = c.entries.map (·.key)) (type : TypeRef)
    (nameSpace : Option String) :
    c'.declarationsOf type nameSpace = c.declarationsOf type nameSpace := by
  simp only [declarationsOf, idsOf_eq_of_keys h]

theorem map_entryOf?_withoutSpans
    (h : List.Forall₂ Document.SameDeclarations documents documents') (id : Nat) :
    ((ofDocuments documents').entryOf? id).map Entry.withoutSpans =
      ((ofDocuments documents).entryOf? id).map Entry.withoutSpans := by
  rw [entryOf?, entryOf?, ← List.getElem?_map, ← List.getElem?_map]
  exact congrArg (·[id]?) (Entry.map_withoutSpans_ofDocuments h 0 0)

/-- The outcome for a declaration, of which only the namespaces of the documents are needed. -/
def outcomeIn? (s : Settings) (nameSpaces : List (Option String)) (e : Entry) :
    Option (String × Except (Option Cause) (Option UnionType)) :=
  nameSpaces[e.document]?.map fun nameSpace =>
    (e.key, Extraction.outcome (s.extract { path := "", nameSpace := nameSpace } e))

theorem outcomeIn?_withoutSpans (s : Settings) (nameSpaces : List (Option String)) (e : Entry) :
    outcomeIn? s nameSpaces e.withoutSpans = outcomeIn? s nameSpaces e := by
  simp only [outcomeIn?, Settings.outcome_extract_withoutSpans rfl]
  rfl

theorem map_outcome_documentOf? (c : Compilation) (s : Settings) (e : Entry) :
    (c.documentOf? e).map (fun d => (e.key, Extraction.outcome (s.extract d e))) =
      outcomeIn? s (c.documents.map (·.nameSpace)) e := by
  rw [outcomeIn?, List.getElem?_map, Option.map_map, documentOf?]
  refine Option.map_congr fun d _ => ?_
  exact congrArg (e.key, ·) (Settings.outcome_extract_congr rfl rfl)

theorem map_resultAt? (c : Compilation) (s : Settings) (id : Nat) :
    (c.resultAt? s id).map Extraction.keyedOutcome =
      (c.entryOf? id).bind (outcomeIn? s (c.documents.map (·.nameSpace))) := by
  rw [resultAt?, Option.map_bind]
  refine congrArg _ (funext fun e => ?_)
  rw [← map_outcome_documentOf?, Function.comp_apply, Option.map_map]
  rfl

theorem map_nameSpace_congr (h : List.Forall₂ Document.SameDeclarations documents documents') :
    documents'.map (·.nameSpace) = documents.map (·.nameSpace) := by
  induction h with
  | nil => rfl
  | cons hhead _ ih => rw [List.map_cons, List.map_cons, hhead.nameSpace, ih]

theorem map_resultAt?_congr (h : List.Forall₂ Document.SameDeclarations documents documents')
    (s : Settings) (id : Nat) :
    ((ofDocuments documents').resultAt? s id).map Extraction.keyedOutcome =
      ((ofDocuments documents).resultAt? s id).map Extraction.keyedOutcome := by
  rw [map_resultAt?, map_resultAt?]
  simp only [ofDocuments, map_nameSpace_congr h]
  exact Entry.bind_congr (fun e => (outcomeIn?_withoutSpans s _ e).symm)
    (map_entryOf?_withoutSpans h id)

theorem map_extractEach_congr (h : List.Forall₂ Document.SameDeclarations documents documents')
    (s : Settings) :
    ((ofDocuments documents').extractEach s).map Extraction.keyedOutcome =
      ((ofDocuments documents).extractEach s).map Extraction.keyedOutcome := by
  apply List.ext_getElem?
  intro id
  rw [List.getElem?_map, List.getElem?_map, getElem?_extractEach, getElem?_extractEach]
  exact map_resultAt?_congr h s id

theorem leading?_eq (c : Compilation) (s : Settings) (receiver : TypeRef)
    (nameSpace : Option String) :
    c.leading? s receiver nameSpace =
      ((c.declarationsOf receiver nameSpace).filterMap c.entryOf?).find?
        fun e => (s.eligible? e.decl).isSome := by
  rw [leading?, lookup, List.map_filterMap]
  congr 2
  funext id
  rw [Option.map_map]
  exact Option.map_id'

theorem leading?_withoutSpans (c : Compilation) (s : Settings) (receiver : TypeRef)
    (nameSpace : Option String) :
    (c.leading? s receiver nameSpace).map Entry.withoutSpans =
      ((c.declarationsOf receiver nameSpace).filterMap
        fun id => (c.entryOf? id).map Entry.withoutSpans).find?
          fun e => (s.eligible? e.decl).isSome := by
  have heligible : (fun e : Entry => (s.eligible? e.decl).isSome) ∘ Entry.withoutSpans =
      fun e => (s.eligible? e.decl).isSome := by
    funext e
    exact (congrArg _ (s.eligible?_withoutSpans e.decl)).trans Option.isSome_map
  rw [← List.map_filterMap, List.find?_map, heligible, leading?_eq]

theorem receiverUnion?_eq_leading? (c : Compilation) (s : Settings) (d : Document)
    {call : Invocation} {receiver : TypeRef} (hreceiver : call.receiver = some receiver) :
    c.receiverUnion? s d call = ((c.leading? s receiver d.nameSpace).bind
      (outcomeIn? s (c.documents.map (·.nameSpace)))).bind fun x => x.2.toOption.join := by
  ext u
  simp only [receiverUnion?_eq_some_iff hreceiver, ← map_outcome_documentOf?, Option.bind_eq_some_iff,
    Option.map_eq_some_iff]
  constructor
  · rintro ⟨e, home, he, hhome, hextract⟩
    exact ⟨_, ⟨e, he, home, hhome, rfl⟩, Extraction.join_outcome_eq_some_iff.2 hextract⟩
  · rintro ⟨_, ⟨e, he, home, hhome, rfl⟩, hu⟩
    exact ⟨e, home, he, hhome, Extraction.join_outcome_eq_some_iff.1 hu⟩

theorem agrees_of_sameDeclarations
    (h : List.Forall₂ Document.SameDeclarations documents documents') (s : Settings) :
    (ofDocuments documents).Agrees s (ofDocuments documents') := by
  have hkeys : (ofDocuments documents').entries.map (·.key) =
      (ofDocuments documents).entries.map (·.key) := by
    have hmap := congrArg (List.map Entry.key) (Entry.map_withoutSpans_ofDocuments h 0 0)
    rwa [List.map_map, List.map_map] at hmap
  have hlookup := declarationsOf_eq_of_keys hkeys
  obtain ⟨hunions, hfailures⟩ := Extraction.collect_congr (map_extractEach_congr h s) []
  constructor
  case lookup => exact hlookup
  case eligible =>
    intro id
    exact Entry.bind_congr (g := fun e => s.eligible? e.decl)
      (fun e => (s.eligible?_withoutSpans e.decl).symm) (map_entryOf?_withoutSpans h id)
  case result => exact map_resultAt?_congr h s
  case unions => exact hunions
  case failures => exact hfailures
  case receiver =>
    intro d call
    cases hreceiver : call.receiver with
    | none => simp [receiverUnion?, hreceiver]
    | some receiver =>
      rw [receiverUnion?_eq_leading? _ _ _ hreceiver, receiverUnion?_eq_leading? _ _ _ hreceiver]
      have hleading : ((ofDocuments documents').leading? s receiver d.nameSpace).map
          Entry.withoutSpans =
            ((ofDocuments documents).leading? s receiver d.nameSpace).map Entry.withoutSpans := by
        simp only [leading?_withoutSpans, hlookup, map_entryOf?_withoutSpans h]
      simp only [ofDocuments, map_nameSpace_congr h] at hleading ⊢
      rw [Entry.bind_congr (fun e => (outcomeIn?_withoutSpans s _ e).symm) hleading]

end

end Compilation

end CaseUnion
