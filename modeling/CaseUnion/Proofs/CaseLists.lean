import Mathlib.Data.List.Forall2
import Mathlib.Data.List.Nodup
import CaseUnion.Extraction

/-!
# Reading case lists

The methods of a case list are read in order, and the parameters of each in order. Where all names
are different and every parameter has a type (`AreCases`), the reading has one case for each method;
otherwise it stops at the first offence (`FirstOffence`). `readCases_spec` says so for the rest of a
list behind a part that is read already, and this part carries the induction: the names seen are
its names.
-/

namespace CaseUnion

/-- The parameters have different names, and each has a type. -/
structure AreParameters (parameters : List Parameter) : Prop where
  distinct : (parameters.map (·.name)).Nodup
  typed : ∀ p ∈ parameters, p.type.isSome

instance (parameters : List Parameter) : Decidable (AreParameters parameters) :=
  decidable_of_iff ((parameters.map (·.name)).Nodup ∧ ∀ p ∈ parameters, p.type.isSome)
    ⟨fun h => ⟨h.1, h.2⟩, fun h => ⟨h.distinct, h.typed⟩⟩

/-- The methods have different names, and all have proper parameters. -/
structure AreCases (methods : List Method) : Prop where
  distinct : (methods.map (·.name)).Nodup
  parameters : ∀ m ∈ methods, AreParameters m.parameters

instance (methods : List Method) : Decidable (AreCases methods) :=
  decidable_of_iff ((methods.map (·.name)).Nodup ∧ ∀ m ∈ methods, AreParameters m.parameters)
    ⟨fun h => ⟨h.1, h.2⟩, fun h => ⟨h.distinct, h.parameters⟩⟩

/-- What is reported of the parameters of a case, where nothing is wrong in front of it. A name that
was used before comes before a missing type. -/
inductive ParameterOffence (unionName caseName : String) (parameters : List Parameter) :
    Cause → Prop where
  | repeated {before after : List Parameter} {p : Parameter}
      (hsplit : parameters = before ++ p :: after) (hbefore : AreParameters before)
      (hname : p.name ∈ before.map (·.name)) :
      ParameterOffence unionName caseName parameters
        (.duplicateParameter unionName caseName p.name)
  | untyped {before after : List Parameter} {p : Parameter}
      (hsplit : parameters = before ++ p :: after) (hbefore : AreParameters before)
      (hname : p.name ∉ before.map (·.name)) (htype : p.type = none) :
      ParameterOffence unionName caseName parameters
        (.unresolvedParameter unionName caseName p.name)

/-- What is reported of a case list, with the span of the method: nothing is wrong in front of this
method. A name that was used before comes before everything about its parameters. -/
inductive FirstOffence (unionName : String) (methods : List Method) :
    Cause → Option Span → Prop where
  | repeated {before after : List Method} {m : Method}
      (hsplit : methods = before ++ m :: after) (hbefore : AreCases before)
      (hname : m.name ∈ before.map (·.name)) :
      FirstOffence unionName methods (.duplicateCase unionName m.name) m.span
  | parameter {before after : List Method} {m : Method} {cause : Cause}
      (hsplit : methods = before ++ m :: after) (hbefore : AreCases before)
      (hname : m.name ∉ before.map (·.name))
      (hparameter : ParameterOffence unionName m.name m.parameters cause) :
      FirstOffence unionName methods cause m.span

/-- A descriptor says of a reference no more than its normal form, and whether it is the name alone
of a type parameter in scope. -/
structure Descriptor.Describes (inScope : List String) (type : TypeRef) (d : Descriptor) :
    Prop where
  name : d.name = type.render
  qualified : d.qualified = type.render
  typeParameter : d.origin = .typeParameter ↔ ∃ name ∈ inScope, type = .simple name
  referenced : d.origin ≠ .typeParameter → d.origin = .referenced
  plain : d.nameSpace = none ∧ d.accessibility = .anywhere ∧ d.modifiers = {} ∧
    d.typeParameters = [] ∧ d.parents = []

structure CaseParameter.StandsFor (inScope : List String) (p : Parameter) (q : CaseParameter) :
    Prop where
  name : q.name = p.name
  type : ∃ type, p.type = some type ∧ q.type.Describes inScope type

structure UnionCase.StandsFor (inScope : List String) (m : Method) (k : UnionCase) : Prop where
  name : k.name = m.name
  parameters : List.Forall₂ (CaseParameter.StandsFor inScope) m.parameters k.parameters

theorem TypeRef.eq_simple_of_simple? {type : TypeRef} {name : String}
    (h : type.simple? = some name) : type = .simple name := by
  unfold simple? at h
  split at h
  · cases h
    rfl
  · cases h

theorem Descriptor.describes_ofReference (type : TypeRef) (inScope : List String) :
    (ofReference type inScope).Describes inScope type := by
  have hiff : (ofReference type inScope).origin = .typeParameter ↔
      ∃ name ∈ inScope, type = .simple name := by
    cases hsimple : type.simple? with
    | none =>
      refine iff_of_false (by simp [ofReference, hsimple]) ?_
      rintro ⟨name, -, rfl⟩
      cases hsimple
    | some name =>
      rw [TypeRef.eq_simple_of_simple? hsimple]
      simp [ofReference, TypeRef.simple, TypeRef.simple?]
  refine ⟨rfl, rfl, hiff, fun hne => ?_, rfl, rfl, rfl, rfl, rfl⟩
  simp only [ofReference] at hne ⊢
  split at hne
  · exact if_neg fun hmem => hne (if_pos hmem)
  · rfl

theorem CaseParameter.names_of_standsFor {inScope : List String} {parameters : List Parameter}
    {read : List CaseParameter} (h : List.Forall₂ (StandsFor inScope) parameters read) :
    read.map (·.name) = parameters.map (·.name) := by
  induction h with
  | nil => rfl
  | cons hhead _ ih => rw [List.map_cons, List.map_cons, hhead.name, ih]

theorem UnionCase.names_of_standsFor {inScope : List String} {methods : List Method}
    {cases : List UnionCase} (h : List.Forall₂ (StandsFor inScope) methods cases) :
    cases.map (·.name) = methods.map (·.name) := by
  induction h with
  | nil => rfl
  | cons hhead _ ih => rw [List.map_cons, List.map_cons, hhead.name, ih]

theorem UnionCase.exists_of_mem_cases {inScope : List String} {methods : List Method}
    {cases : List UnionCase} (h : List.Forall₂ (StandsFor inScope) methods cases) {k : UnionCase}
    (hk : k ∈ cases) : ∃ m ∈ methods, k.StandsFor inScope m := by
  induction h with
  | nil => cases hk
  | cons hhead _ ih =>
    rcases List.mem_cons.1 hk with rfl | hk
    · exact ⟨_, List.mem_cons_self, hhead⟩
    · obtain ⟨m, hm, hstands⟩ := ih hk
      exact ⟨m, List.mem_cons_of_mem _ hm, hstands⟩

section
variable {α β : Type} {f : α → β} {before after : List α} {x : α}

theorem nodup_map_concat (h : (before.map f).Nodup) (hx : f x ∉ before.map f) :
    ((before ++ [x]).map f).Nodup := by
  rw [List.map_append, List.map_singleton]
  exact List.concat_eq_append ▸ h.concat hx

theorem not_nodup_map_of_mem (hx : f x ∈ before.map f) :
    ¬ ((before ++ x :: after).map f).Nodup := by
  rw [List.map_append, List.map_cons]
  intro h
  exact (List.nodup_append.1 h).2.2 _ hx _ List.mem_cons_self rfl

end

section
variable {unionName caseName : String} {inScope : List String}

theorem AreParameters.nil : AreParameters [] := ⟨List.nodup_nil, nofun⟩

theorem AreParameters.concat {front : List Parameter} {p : Parameter} {type : TypeRef}
    (h : AreParameters front) (hname : p.name ∉ front.map (·.name)) (htype : p.type = some type) :
    AreParameters (front ++ [p]) := by
  refine ⟨nodup_map_concat h.distinct hname, ?_⟩
  intro q hq
  rcases List.mem_append.1 hq with hq | hq
  · exact h.typed q hq
  · rw [List.mem_singleton.1 hq, htype]
    rfl

theorem AreCases.nil : AreCases [] := ⟨List.nodup_nil, nofun⟩

theorem AreCases.concat {front : List Method} {m : Method} (h : AreCases front)
    (hname : m.name ∉ front.map (·.name)) (hparameters : AreParameters m.parameters) :
    AreCases (front ++ [m]) := by
  refine ⟨nodup_map_concat h.distinct hname, ?_⟩
  intro other hother
  rcases List.mem_append.1 hother with hother | hother
  · exact h.parameters other hother
  · exact List.mem_singleton.1 hother ▸ hparameters

theorem ParameterOffence.not_areParameters {parameters : List Parameter} {cause : Cause}
    (h : ParameterOffence unionName caseName parameters cause) : ¬ AreParameters parameters := by
  intro hproper
  cases h with
  | repeated hsplit _ hname => exact not_nodup_map_of_mem hname (hsplit ▸ hproper.distinct)
  | untyped hsplit _ _ htype =>
    have htyped := hproper.typed _ (hsplit ▸ List.mem_append_right _ List.mem_cons_self)
    rw [htype] at htyped
    cases htyped

theorem FirstOffence.not_areCases {methods : List Method} {cause : Cause} {span : Option Span}
    (h : FirstOffence unionName methods cause span) : ¬ AreCases methods := by
  intro hproper
  cases h with
  | repeated hsplit _ hname => exact not_nodup_map_of_mem hname (hsplit ▸ hproper.distinct)
  | parameter hsplit _ _ hparameter =>
    exact hparameter.not_areParameters
      (hproper.parameters _ (hsplit ▸ List.mem_append_right _ List.mem_cons_self))

theorem ParameterOffence.isLocatable {parameters : List Parameter} {cause : Cause}
    (h : ParameterOffence unionName caseName parameters cause) : cause.isLocatable := by
  cases h <;> rfl

theorem FirstOffence.isLocatable {methods : List Method} {cause : Cause} {span : Option Span}
    (h : FirstOffence unionName methods cause span) : cause.isLocatable := by
  cases h with
  | repeated => rfl
  | parameter _ _ _ hparameter => exact hparameter.isLocatable

/-- Reading goes on behind proper parameters, whose names are seen. -/
theorem readParameters_spec {seen : List String} {front rest : List Parameter}
    (hfront : AreParameters front) (hseen : ∀ name, name ∈ seen ↔ name ∈ front.map (·.name)) :
    match readParameters unionName caseName inScope seen rest with
    | .ok read =>
      AreParameters (front ++ rest) ∧ List.Forall₂ (CaseParameter.StandsFor inScope) rest read
    | .error cause => ParameterOffence unionName caseName (front ++ rest) cause := by
  induction rest generalizing seen front with
  | nil =>
    rw [List.append_nil]
    exact ⟨hfront, .nil⟩
  | cons p rest ih =>
    rw [readParameters, List.contains_eq_mem]
    by_cases hname : p.name ∈ front.map (·.name)
    · rw [if_pos (by simpa [hseen] using hname)]
      exact .repeated rfl hfront hname
    · rw [if_neg (by simpa [hseen] using hname)]
      cases htype : p.type with
      | none => exact .untyped rfl hfront hname htype
      | some type =>
        have hrest := @ih (p.name :: seen) _ (hfront.concat hname htype)
          fun name => by simp [hseen, or_comm]
        rw [List.append_assoc, List.singleton_append] at hrest
        cases hread : readParameters unionName caseName inScope (p.name :: seen) rest with
        | error cause =>
          rw [hread] at hrest
          exact hrest
        | ok others =>
          rw [hread] at hrest
          exact ⟨hrest.1, .cons ⟨rfl, type, htype, Descriptor.describes_ofReference type inScope⟩
            hrest.2⟩

/-- Reading goes on behind proper methods, whose names are seen. -/
theorem readCases_spec {seen : List String} {front rest : List Method} (hfront : AreCases front)
    (hseen : ∀ name, name ∈ seen ↔ name ∈ front.map (·.name)) :
    match readCases unionName inScope seen rest with
    | .ok cases => AreCases (front ++ rest) ∧ List.Forall₂ (UnionCase.StandsFor inScope) rest cases
    | .error (cause, span) => FirstOffence unionName (front ++ rest) cause span := by
  induction rest generalizing seen front with
  | nil =>
    rw [List.append_nil]
    exact ⟨hfront, .nil⟩
  | cons m rest ih =>
    rw [readCases, List.contains_eq_mem]
    by_cases hname : m.name ∈ front.map (·.name)
    · rw [if_pos (by simpa [hseen] using hname)]
      exact .repeated rfl hfront hname
    · rw [if_neg (by simpa [hseen] using hname)]
      have hparameters :=
        @readParameters_spec unionName m.name inScope [] [] m.parameters .nil (by simp)
      rw [List.nil_append] at hparameters
      cases hread : readParameters unionName m.name inScope [] m.parameters with
      | error cause =>
        rw [hread] at hparameters
        exact .parameter rfl hfront hname hparameters
      | ok parameters =>
        rw [hread] at hparameters
        have hrest := @ih (m.name :: seen) _ (hfront.concat hname hparameters.1)
          fun name => by simp [hseen, or_comm]
        rw [List.append_assoc, List.singleton_append] at hrest
        cases hothers : readCases unionName inScope (m.name :: seen) rest with
        | error offence =>
          rw [hothers] at hrest
          exact hrest
        | ok others =>
          rw [hothers] at hrest
          exact ⟨hrest.1, .cons ⟨rfl, hparameters.2⟩ hrest.2⟩

theorem areCases_of_readCases {methods : List Method} {cases : List UnionCase}
    (h : readCases unionName inScope [] methods = .ok cases) :
    AreCases methods ∧ List.Forall₂ (UnionCase.StandsFor inScope) methods cases := by
  have hspec := @readCases_spec unionName inScope [] [] methods .nil (by simp)
  rwa [h, List.nil_append] at hspec

theorem firstOffence_of_readCases {methods : List Method} {cause : Cause} {span : Option Span}
    (h : readCases unionName inScope [] methods = .error (cause, span)) :
    FirstOffence unionName methods cause span := by
  have hspec := @readCases_spec unionName inScope [] [] methods .nil (by simp)
  rwa [h, List.nil_append] at hspec

end

end CaseUnion
