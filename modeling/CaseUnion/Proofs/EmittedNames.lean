import CaseUnion.Proofs.ReopenedTypes

/-!
# Names in emitted code

The members of a unit are read here with the names that they declare (`UnitMember.declaration`). The
printed code is the same (`nodes_declaration`), but variables and functions have their names apart
from the text around them. A block of a function knows the names introduced in it and around it
(`Fragment.scopes`).

Some of these names are those of cases and of their parameters, and some belong to the emission.
Extraction compares the names of cases with each other, and those of the parameters of a case, but
not with the names of the emission. So names that are known together are different exactly where no
case has a name of the emission (`extracted_names_apart`). If the variable that holds a payload has
the name of a case, then it hides the callback of the case (`names_clash_dataUnion`).
-/

namespace CaseUnion

/-! ### Code that declares names -/

/-- A parameter, a field, or a local variable. -/
structure VariableCode where
  /-- The words in front of the name, the last of them its type. -/
  front : String
  name : String
  /-- The value that it has where no other is given. -/
  value : Option String := none
  deriving DecidableEq, Repr

def VariableCode.text (v : VariableCode) : String :=
  match v.value with
  | none => s!"{v.front} {v.name}"
  | some value => s!"{v.front} {v.name} = {value}"

/-- A line inside a function. -/
inductive Statement where
  /-- A line that introduces no name. -/
  | plain (text : String)
  | declare (v : VariableCode)
  /-- Returns whether a value has a type and, under a new name, meets a condition. -/
  | returnIs (value type name condition : String)
  deriving DecidableEq, Repr

namespace Statement

def text : Statement → String
  | plain text => text
  | declare v => s!"{v.text};"
  | returnIs value type name condition => s!"return {value} is {type} {name} && {condition};"

def introduced : Statement → List String
  | plain _ => []
  | declare v => [v.name]
  | returnIs _ _ name _ => [name]

@[simp] theorem text_declare (v : VariableCode) : (declare v).text = s!"{v.text};" := rfl

@[simp] theorem text_returnIs (value type name condition : String) :
    (returnIs value type name condition).text =
      s!"return {value} is {type} {name} && {condition};" := rfl

end Statement

/-- A part of the body of a function. -/
inductive Fragment where
  | statement (s : Statement)
  | block (header : String) (body : List Fragment)
  | indented (body : List Fragment)

namespace Fragment

def plain (text : String) : Fragment := statement (.plain text)

mutual

def node : Fragment → Node
  | statement s => .line s.text
  | block header body => .block header (nodes body)
  | indented body => .indented (nodes body)

def nodes : List Fragment → List Node
  | [] => []
  | fragment :: rest => fragment.node :: nodes rest

end

mutual

/-- The names that a fragment introduces in the block where it stands. -/
def introduced : Fragment → List String
  | statement s => s.introduced
  | block _ _ => []
  | indented body => allIntroduced body

def allIntroduced : List Fragment → List String
  | [] => []
  | fragment :: rest => fragment.introduced ++ allIntroduced rest

end

mutual

/-- The names known in each block of a fragment: those known around it, and those introduced in
it. -/
def scopes (around : List String) : Fragment → List (List String)
  | statement _ => []
  | block _ body =>
    (around ++ allIntroduced body) :: allScopes (around ++ allIntroduced body) body
  | indented body => allScopes around body

def allScopes (around : List String) : List Fragment → List (List String)
  | [] => []
  | fragment :: rest => fragment.scopes around ++ allScopes around rest

end

@[simp] theorem node_plain (text : String) : (plain text).node = .line text := rfl

@[simp] theorem nodes_nil : nodes [] = [] := rfl

@[simp] theorem nodes_cons (fragment : Fragment) (rest : List Fragment) :
    nodes (fragment :: rest) = fragment.node :: nodes rest := rfl

theorem nodes_eq_map (body : List Fragment) : nodes body = body.map node := by
  induction body with
  | nil => rfl
  | cons fragment rest ih => rw [nodes, ih, List.map_cons]

theorem allIntroduced_eq_flatMap (body : List Fragment) :
    allIntroduced body = body.flatMap introduced := by
  induction body with
  | nil => rfl
  | cons fragment rest ih => rw [allIntroduced, ih, List.flatMap_cons]

theorem allScopes_eq_flatMap (around : List String) (body : List Fragment) :
    allScopes around body = body.flatMap (scopes around) := by
  induction body with
  | nil => rfl
  | cons fragment rest ih => rw [allScopes, ih, List.flatMap_cons]

end Fragment

structure FunctionCode where
  /-- The words in front of the name. -/
  front : String
  name : String
  typeParameters : String := ""
  parameters : List VariableCode
  body : List Fragment

namespace FunctionCode

def header (f : FunctionCode) : String :=
  s!"{f.front} {f.name}{f.typeParameters}(" ++ ", ".intercalate (f.parameters.map (·.text)) ++ ")"

def node (f : FunctionCode) : Node := .block f.header (Fragment.nodes f.body)

/-- The names known in the blocks of a function. The parameters are known in all of them. -/
def scopes (f : FunctionCode) : List (List String) :=
  (Fragment.block f.header f.body).scopes (f.parameters.map (·.name))

end FunctionCode

/-- A member of a type with the names that it declares. -/
inductive MemberDeclaration where
  | enumeration (front name type : String) (entries : List String)
  | fields (vs : List VariableCode)
  | function (f : FunctionCode)
  /-- A function with the name of the type. -/
  | constructor (f : FunctionCode)

namespace MemberDeclaration

def nodes : MemberDeclaration → List Node
  | enumeration front name type entries =>
    [.block s!"{front} {name} : {type}" (entries.map fun entry => .line s!"{entry},")]
  | fields vs => vs.map fun v => .line s!"{v.text};"
  | function f => [f.node]
  | constructor f => [f.node]

/-- The names that a member adds to its type. -/
def names : MemberDeclaration → List String
  | enumeration _ name _ _ => [name]
  | fields vs => vs.map (·.name)
  | function f => [f.name]
  | constructor _ => []

/-- The names that are known together in each part of a member. -/
def scopes : MemberDeclaration → List (List String)
  | enumeration _ _ _ entries => [entries]
  | fields _ => []
  | function f => f.scopes
  | constructor f => f.scopes

/-- Names that are known together are different. -/
def NamesApart (m : MemberDeclaration) : Prop := ∀ scope ∈ m.scopes, scope.Nodup

end MemberDeclaration

/-! ### What a unit declares -/

namespace UnionCase

/-- The parameter of a dispatch that takes the callback of a case. -/
def callbackVariable (c : UnionCase) : VariableCode := ⟨c.callbackType, c.name, none⟩

def optionalCallbackVariable (c : UnionCase) : VariableCode :=
  ⟨s!"{c.callbackType}?", c.name, some "null"⟩

/-- What a section of a dispatch declares. -/
def payloadVariables (c : UnionCase) : List VariableCode :=
  if c.isNullary then [] else [⟨"var", "data", some s!"({c.payloadType})_data!"⟩]

def callCode (c : UnionCase) : List Fragment :=
  c.payloadVariables.map (fun v => .statement (.declare v)) ++
    [.plain (s!"return {c.name}(" ++ ", ".intercalate c.unpacked ++ ");")]

def labelCode (c : UnionCase) : Fragment := .plain s!"case Tag.{c.name}:"

def dispatchCode (c : UnionCase) : List Fragment :=
  [c.labelCode, if c.isNullary then .indented c.callCode else .block "" c.callCode]

def guardedCode (c : UnionCase) : List Fragment :=
  [c.labelCode, .block "" (.plain s!"if ({c.name} == null) goto default;" :: c.callCode)]

theorem text_optionalCallbackVariable (c : UnionCase) :
    c.optionalCallbackVariable.text = s!"{c.callbackType}? {c.name} = null" := by
  simp [optionalCallbackVariable, VariableCode.text, ToString.toString, ← String.toList_inj]

theorem nodes_callCode (c : UnionCase) : Fragment.nodes c.callCode = c.callLines := by
  rw [callCode, callLines, payloadVariables]
  cases h : c.isNullary with
  | true =>
    have hparameters : c.parameters = [] := List.isEmpty_iff.1 h
    have hunpacked : ", ".intercalate c.unpacked = "" := by
      rw [unpacked, arity, hparameters]
      rfl
    have hcall : s!"return {c.name}(" ++ "" ++ ");" = s!"return {c.name}();" := by
      simp [ToString.toString, ← String.toList_inj]
    rw [hunpacked, hcall]
    rfl
  | false =>
    have hvariable : (Statement.declare ⟨"var", "data", some s!"({c.payloadType})_data!"⟩).text =
        s!"var data = ({c.payloadType})_data!;" := by
      simp [VariableCode.text, ToString.toString, ← String.toList_inj]
    exact congrArg (fun text => [Node.line text, .line _]) hvariable

theorem nodes_dispatchCode (c : UnionCase) : Fragment.nodes c.dispatchCode = c.dispatchSection := by
  rw [dispatchCode, dispatchSection]
  cases c.isNullary with
  | true => exact congrArg (fun body => [c.sectionLabel, .indented body]) c.nodes_callCode
  | false => exact congrArg (fun body => [c.sectionLabel, .scope body]) c.nodes_callCode

theorem nodes_guardedCode (c : UnionCase) : Fragment.nodes c.guardedCode = c.guardedSection :=
  congrArg (fun body => [c.sectionLabel,
    .scope (.line s!"if ({c.name} == null) goto default;" :: body)]) c.nodes_callCode

end UnionCase

namespace UnitMember

def dispatchFunction (name : String) (parameters : List VariableCode) (sections : List Fragment)
    (fallback : String) : FunctionCode where
  front := "public TResult"
  name := name
  typeParameters := "<TResult>"
  parameters := parameters
  body := [.block "switch (_tag)" (sections ++ [.plain "default:", .indented [.plain fallback]])]

def equalityFunction (self : String) (isClass : Bool) (m : EqualityMember) : FunctionCode :=
  let operand := if isClass then s!"{self}?" else self
  match m with
  | .typed =>
    let same := "_tag == other._tag && object.Equals(_data, other._data)"
    { front := "public bool"
      name := "Equals"
      parameters := [⟨operand, "other", none⟩]
      body := [.plain (if isClass then s!"return other is not null && {same};"
        else s!"return {same};")] }
  | .untyped =>
    { front := "public override bool"
      name := "Equals"
      parameters := [⟨"object?", "obj", none⟩]
      body := [.statement (.returnIs "obj" self "other" "Equals(other)")] }
  | .hashCode =>
    { front := "public override int"
      name := "GetHashCode"
      parameters := []
      body := [.plain "return System.HashCode.Combine(_tag, _data);"] }
  | .equal =>
    { front := "public static bool"
      name := "operator =="
      parameters := [⟨operand, "left", none⟩, ⟨operand, "right", none⟩]
      body := [.plain (if isClass then "return left is null ? right is null : left.Equals(right);"
        else "return left.Equals(right);")] }
  | .notEqual =>
    { front := "public static bool"
      name := "operator !="
      parameters := [⟨operand, "left", none⟩, ⟨operand, "right", none⟩]
      body := [.plain (if isClass then "return !(left == right);"
        else "return !left.Equals(right);")] }

/-- A member of a unit with the names that it declares. -/
def declaration (u : UnionType) : UnitMember → MemberDeclaration
  | tags width entries => .enumeration "private enum" "Tag" width.keyword entries
  | fields =>
    .fields [⟨"private readonly Tag", "_tag", none⟩, ⟨"private readonly object?", "_data", none⟩]
  | constructor =>
    .constructor
      { front := "private"
        name := u.descriptor.name
        parameters := [⟨"Tag", "tag", none⟩, ⟨"object?", "data", some "default"⟩]
        body := [.plain "_tag = tag;", .plain "_data = data;"] }
  | factory c =>
    let self := u.descriptor.selfReference
    if c.isNullary then
      .fields [⟨s!"public static readonly {self}", c.name, some s!"new {self}(Tag.{c.name})"⟩]
    else
      .function
        { front := s!"public static {self}"
          name := c.name
          parameters := c.parameters.map fun p => ⟨p.type.qualified, p.name, none⟩
          body := [.plain s!"return new {self}(Tag.{c.name}, {c.payloadValue});"] }
  | dispatch cases =>
    .function (dispatchFunction "Match" (cases.map (·.callbackVariable))
      (cases.flatMap (·.dispatchCode))
      "throw new System.ArgumentOutOfRangeException(nameof(_tag), _tag, null);")
  | dispatchWithDefault cases =>
    .function (dispatchFunction "MatchWithDefault"
      (⟨"System.Func<TResult>", "_", none⟩ :: cases.map (·.optionalCallbackVariable))
      (cases.flatMap (·.guardedCode)) "return _();")
  | equality m => .function (equalityFunction u.descriptor.selfReference u.isClass m)

theorem node_dispatchFunction {name fallback : String} {parameters : List VariableCode}
    {cases : List UnionCase} {sections : UnionCase → List Fragment}
    {printed : UnionCase → List Node} (h : ∀ c, Fragment.nodes (sections c) = printed c) :
    (dispatchFunction name parameters (cases.flatMap sections) fallback).node =
      dispatchNode name (parameters.map (·.text)) (cases.flatMap printed) fallback := by
  have hsections : (cases.flatMap sections).map Fragment.node = cases.flatMap printed := by
    simp only [Fragment.nodes_eq_map] at h
    rw [List.map_flatMap]
    exact List.flatMap_congr fun c _ => h c
  simp [dispatchFunction, FunctionCode.node, FunctionCode.header, dispatchNode, Fragment.node,
    Fragment.nodes_eq_map, hsections, ToString.toString, ← String.toList_inj]

theorem node_equalityFunction (self : String) (isClass : Bool) (m : EqualityMember) :
    (equalityFunction self isClass m).node = equalityNode self isClass m := by
  cases m <;> cases isClass <;>
    simp [equalityFunction, equalityNode, FunctionCode.node, FunctionCode.header, Fragment.node,
      VariableCode.text, ToString.toString, ← String.toList_inj]

theorem nodes_factory (u : UnionType) (c : UnionCase) :
    ((factory c).declaration u).nodes = (factory c).nodes u := by
  rw [declaration, nodes]
  cases c.isNullary with
  | true =>
    simp [MemberDeclaration.nodes, VariableCode.text, ToString.toString, ← String.toList_inj]
  | false =>
    simp [MemberDeclaration.nodes, FunctionCode.node, FunctionCode.header, UnionCase.signature,
      Function.comp_def, VariableCode.text, ToString.toString]

/-- The declared names stand in the code that is emitted. -/
theorem nodes_declaration (u : UnionType) (m : UnitMember) :
    (m.declaration u).nodes = m.nodes u := by
  cases m with
  | tags width entries => rfl
  | fields => rfl
  | constructor =>
    simp [declaration, nodes, MemberDeclaration.nodes, FunctionCode.node, FunctionCode.header,
      VariableCode.text, ToString.toString, ← String.toList_inj]
  | factory c => exact nodes_factory u c
  | dispatch cases =>
    rw [declaration, nodes, MemberDeclaration.nodes,
      node_dispatchFunction UnionCase.nodes_dispatchCode, List.map_map]
    rfl
  | dispatchWithDefault cases =>
    have hcallbacks : (cases.map (·.optionalCallbackVariable)).map (·.text) =
        cases.map fun c => s!"{c.callbackType}? {c.name} = null" := by
      rw [List.map_map]
      exact List.map_congr_left fun c _ => c.text_optionalCallbackVariable
    rw [declaration, nodes, MemberDeclaration.nodes,
      node_dispatchFunction UnionCase.nodes_guardedCode, List.map_cons, hcallbacks]
    rfl
  | equality m => exact congrArg ([·]) (node_equalityFunction _ _ m)

end UnitMember

/-! ### Names in sections -/

namespace UnionCase

variable (c : UnionCase)

def payloadNames : List String := c.payloadVariables.map (·.name)

theorem payloadNames_eq : c.payloadNames = if c.isNullary then [] else ["data"] := by
  rw [payloadNames, payloadVariables]
  split <;> rfl

theorem allIntroduced_callCode : Fragment.allIntroduced c.callCode = c.payloadNames := by
  rw [callCode, payloadNames, payloadVariables]
  split <;> rfl

theorem allScopes_callCode (around : List String) :
    Fragment.allScopes around c.callCode = [] := by
  rw [callCode, payloadVariables]
  split <;> rfl

/-- No section introduces a name in the others. -/
theorem allIntroduced_dispatchCode : Fragment.allIntroduced c.dispatchCode = [] := by
  rw [dispatchCode]
  cases h : c.isNullary with
  | true =>
    change Fragment.allIntroduced c.callCode ++ [] = []
    rw [allIntroduced_callCode, payloadNames_eq, h]
    rfl
  | false => rfl

theorem allScopes_dispatchCode (around : List String) :
    Fragment.allScopes around c.dispatchCode =
      if c.isNullary then [] else [around ++ c.payloadNames] := by
  rw [dispatchCode]
  cases c.isNullary with
  | true =>
    change Fragment.allScopes around c.callCode ++ [] = []
    rw [allScopes_callCode, List.append_nil]
  | false =>
    change [around ++ Fragment.allIntroduced c.callCode] ++
      Fragment.allScopes (around ++ Fragment.allIntroduced c.callCode) c.callCode ++ [] = _
    rw [allScopes_callCode, allIntroduced_callCode]
    rfl

theorem allScopes_guardedCode (around : List String) :
    Fragment.allScopes around c.guardedCode = [around ++ c.payloadNames] := by
  change [around ++ Fragment.allIntroduced c.callCode] ++
    Fragment.allScopes (around ++ Fragment.allIntroduced c.callCode) c.callCode ++ [] = _
  rw [allScopes_callCode, allIntroduced_callCode]
  rfl

theorem nodup_append_payloadNames_iff {names : List String} :
    (names ++ c.payloadNames).Nodup ↔ names.Nodup ∧ ∀ n ∈ names, n ∉ c.payloadNames := by
  have hpayload : c.payloadNames.Nodup := by
    rw [payloadNames_eq]
    split <;> decide
  rw [List.nodup_append', and_iff_right hpayload]
  rfl

theorem nodup_dispatchCode_iff {around : List String} (h : around.Nodup) :
    (∀ scope ∈ Fragment.allScopes around c.dispatchCode, scope.Nodup) ↔
      ∀ n ∈ around, n ∉ c.payloadNames := by
  rw [allScopes_dispatchCode]
  split
  · next hnullary => simp [payloadNames_eq, hnullary]
  · rw [List.forall_mem_singleton, nodup_append_payloadNames_iff, and_iff_right h]

theorem nodup_guardedCode_iff {around : List String} (h : around.Nodup) :
    (∀ scope ∈ Fragment.allScopes around c.guardedCode, scope.Nodup) ↔
      ∀ n ∈ around, n ∉ c.payloadNames := by
  rw [allScopes_guardedCode, List.forall_mem_singleton, nodup_append_payloadNames_iff,
    and_iff_right h]

end UnionCase

/-! ### Names in members -/

namespace UnitMember

/-- The names of the variables for payloads in a dispatch over cases. -/
def payloadNames (cases : List UnionCase) : List String := cases.flatMap (·.payloadNames)

/-- The names of the emission in a member that also knows the names of cases. -/
def ownNames : UnitMember → List String
  | dispatch cases => payloadNames cases
  | dispatchWithDefault cases => "_" :: payloadNames cases
  | _ => []

/-- The names that a member adds to its type. The comparison with any object adds none, since it
overloads the typed comparison. -/
def addedNames (u : UnionType) : UnitMember → List String
  | equality .untyped => []
  | m => (m.declaration u).names

theorem eq_data_of_mem_payloadNames {cases : List UnionCase} {name : String}
    (h : name ∈ payloadNames cases) : name = "data" := by
  obtain ⟨c, -, hname⟩ := List.mem_flatMap.1 h
  rw [c.payloadNames_eq] at hname
  split at hname
  · cases hname
  · exact List.mem_singleton.1 hname

theorem scopes_dispatchFunction {name fallback : String} {parameters : List VariableCode}
    {cases : List UnionCase} {sections : UnionCase → List Fragment}
    (hintroduced : ∀ c, Fragment.allIntroduced (sections c) = []) :
    (dispatchFunction name parameters (cases.flatMap sections) fallback).scopes =
      parameters.map (·.name) :: parameters.map (·.name) ::
        cases.flatMap fun c => Fragment.allScopes (parameters.map (·.name)) (sections c) := by
  have hswitch : Fragment.allIntroduced (cases.flatMap sections ++
      [.plain "default:", .indented [.plain fallback]]) = [] := by
    simp only [Fragment.allIntroduced_eq_flatMap] at hintroduced ⊢
    rw [List.flatMap_append, List.flatMap_assoc, List.append_eq_nil_iff]
    exact ⟨List.flatMap_eq_nil_iff.2 fun c _ => hintroduced c, rfl⟩
  have hsections (around : List String) : Fragment.allScopes around (cases.flatMap sections ++
      [.plain "default:", .indented [.plain fallback]]) =
        cases.flatMap fun c => Fragment.allScopes around (sections c) := by
    simp only [Fragment.allScopes_eq_flatMap]
    rw [List.flatMap_append, List.flatMap_assoc]
    exact List.append_nil _
  rw [FunctionCode.scopes, dispatchFunction, Fragment.scopes, Fragment.allIntroduced,
    Fragment.allScopes, Fragment.scopes, hswitch, hsections]
  simp [Fragment.introduced, Fragment.allIntroduced, Fragment.allScopes]

/-- Each section of a dispatch knows the parameters and the payload of one case. -/
theorem namesApart_dispatchFunction {name fallback : String} {parameters : List VariableCode}
    {cases : List UnionCase} {sections : UnionCase → List Fragment}
    (hintroduced : ∀ c, Fragment.allIntroduced (sections c) = [])
    (hsections : ∀ c {around : List String}, around.Nodup →
      ((∀ scope ∈ Fragment.allScopes around (sections c), scope.Nodup) ↔
        ∀ n ∈ around, n ∉ c.payloadNames)) :
    (MemberDeclaration.function
        (dispatchFunction name parameters (cases.flatMap sections) fallback)).NamesApart ↔
      (parameters.map (·.name)).Nodup ∧
        ∀ n ∈ parameters.map (·.name), n ∉ payloadNames cases := by
  rw [MemberDeclaration.NamesApart, MemberDeclaration.scopes, scopes_dispatchFunction hintroduced]
  simp only [List.forall_mem_cons, payloadNames, List.mem_flatMap, forall_exists_index, and_imp,
    not_exists, not_and]
  constructor
  · rintro ⟨hnames, -, hcases⟩
    exact ⟨hnames, fun n hn c hc =>
      (hsections c hnames).1 (fun scope hscope => hcases scope c hc hscope) n hn⟩
  · rintro ⟨hnames, hcases⟩
    exact ⟨hnames, hnames, fun scope c hc hscope =>
      (hsections c hnames).2 (fun n hn => hcases n hn c hc) scope hscope⟩

variable {u : UnionType}

theorem namesApart_factory {c : UnionCase} (h : (c.parameters.map (·.name)).Nodup) :
    ((factory c).declaration u).NamesApart := by
  have hnames : (c.parameters.map fun p => VariableCode.mk p.type.qualified p.name none).map
      (·.name) = c.parameters.map (·.name) := by
    rw [List.map_map]
    rfl
  rw [declaration]
  cases c.isNullary with
  | true => exact List.forall_mem_nil _
  | false =>
    refine List.forall_mem_singleton.2 ?_
    change (_ ++ []).Nodup
    rw [List.append_nil]
    exact hnames ▸ h

theorem namesApart_dispatch_iff {cases : List UnionCase} (h : (cases.map (·.name)).Nodup) :
    ((dispatch cases).declaration u).NamesApart ↔
      ∀ c ∈ cases, c.name ∉ (dispatch cases).ownNames := by
  have hnames : (cases.map (·.callbackVariable)).map (·.name) = cases.map (·.name) := by
    rw [List.map_map]
    rfl
  rw [declaration, namesApart_dispatchFunction UnionCase.allIntroduced_dispatchCode
    UnionCase.nodup_dispatchCode_iff, hnames, and_iff_right h]
  exact List.forall_mem_map

theorem namesApart_dispatchWithDefault_iff {cases : List UnionCase}
    (h : (cases.map (·.name)).Nodup) :
    ((dispatchWithDefault cases).declaration u).NamesApart ↔
      ∀ c ∈ cases, c.name ∉ (dispatchWithDefault cases).ownNames := by
  have hnames : (cases.map (·.optionalCallbackVariable)).map (·.name) = cases.map (·.name) := by
    rw [List.map_map]
    rfl
  have hdefault : "_" ∉ payloadNames cases := fun hmem =>
    absurd (eq_data_of_mem_payloadNames hmem) (by decide)
  have hnamed : "_" ∉ cases.map (·.name) ↔ ∀ c ∈ cases, c.name ≠ "_" := by
    simp only [List.mem_map, not_exists, not_and]
  rw [declaration, namesApart_dispatchFunction (fun _ => rfl) UnionCase.nodup_guardedCode_iff,
    List.map_cons, hnames, List.nodup_cons, and_iff_left h, List.forall_mem_cons,
    and_iff_right hdefault, hnamed, List.forall_mem_map, ← forall₂_and, ownNames]
  simp only [List.mem_cons, not_or, ne_eq]

theorem namesApart_equality (m : EqualityMember) : ((equality m).declaration u).NamesApart := by
  have hoperands : ["left", "right"].Nodup := by decide
  cases m with
  | typed => exact List.forall_mem_singleton.2 (by decide : ["other"].Nodup)
  | untyped => exact List.forall_mem_singleton.2 (by decide : ["obj", "other"].Nodup)
  | hashCode => exact List.forall_mem_singleton.2 List.nodup_nil
  | equal => exact List.forall_mem_singleton.2 hoperands
  | notEqual => exact List.forall_mem_singleton.2 hoperands

theorem addedNames_factory (c : UnionCase) : addedNames u (.factory c) = [c.name] := by
  change ((factory c).declaration u).names = [c.name]
  rw [declaration]
  cases c.isNullary <;> rfl

end UnitMember

/-! ### Names in a unit -/

namespace UnionType

variable {u : UnionType}

/-- The names that the members of a unit add to its type. -/
def memberNames (u : UnionType) : List String := u.members.flatMap (UnitMember.addedNames u)

/-- The names that the members of a unit have from the emission. -/
def fixedNames (u : UnionType) : List String :=
  ["Tag", "_tag", "_data", "Match"] ++
    (if u.hasDefaultDispatch then ["MatchWithDefault"] else []) ++
    ["Equals", "GetHashCode", "operator ==", "operator !="]

theorem memberNames_perm (u : UnionType) :
    u.memberNames.Perm (u.cases.map (·.name) ++ u.fixedNames) := by
  have hfactories : (u.cases.map UnitMember.factory).flatMap (UnitMember.addedNames u) =
      u.cases.map (·.name) := by
    rw [List.flatMap_map, List.map_eq_flatMap]
    exact List.flatMap_congr fun c _ => UnitMember.addedNames_factory c
  have hdefault : (if u.hasDefaultDispatch then [UnitMember.dispatchWithDefault u.cases]
      else []).flatMap (UnitMember.addedNames u) =
        if u.hasDefaultDispatch then ["MatchWithDefault"] else [] := by
    split <;> rfl
  have hnames : u.memberNames = ["Tag", "_tag", "_data"] ++ u.cases.map (·.name) ++
      (["Match"] ++ (if u.hasDefaultDispatch then ["MatchWithDefault"] else []) ++
        ["Equals", "GetHashCode", "operator ==", "operator !="]) := by
    rw [memberNames, members]
    simp only [List.flatMap_append, hfactories, hdefault, List.append_assoc]
    rfl
  rw [hnames, fixedNames]
  exact (List.perm_append_comm.append_right _).trans (.of_eq (List.append_assoc _ _ _))

theorem nodup_memberNames_iff (h : (u.cases.map (·.name)).Nodup) :
    u.memberNames.Nodup ↔ ∀ c ∈ u.cases, c.name ∉ u.fixedNames := by
  have hfixed : u.fixedNames.Nodup := by
    rw [fixedNames]
    split <;> decide
  rw [u.memberNames_perm.nodup_iff, List.nodup_append', and_iff_right h, and_iff_right hfixed]
  exact List.forall_mem_map

theorem of_mem_members {m : UnitMember} (h : m ∈ u.members) :
    m = .tags u.tagWidth (u.cases.map (·.name)) ∨ m = .fields ∨ m = .constructor ∨
      (∃ c ∈ u.cases, m = .factory c) ∨ m = .dispatch u.cases ∨
        m = .dispatchWithDefault u.cases ∨ ∃ k, m = .equality k := by
  simp only [members, List.mem_append, List.mem_cons, List.mem_map, List.not_mem_nil, or_false,
    List.mem_ite_nil_right] at h
  grind

theorem namesApart_declaration_iff (hcases : (u.cases.map (·.name)).Nodup)
    (hparameters : ∀ c ∈ u.cases, (c.parameters.map (·.name)).Nodup) {m : UnitMember}
    (hm : m ∈ u.members) :
    (m.declaration u).NamesApart ↔ ∀ c ∈ u.cases, c.name ∉ m.ownNames := by
  -- without names of the emission no name of a case can be wrong
  have hnone {m : UnitMember} (hapart : (m.declaration u).NamesApart) (hown : m.ownNames = []) :
      (m.declaration u).NamesApart ↔ ∀ c ∈ u.cases, c.name ∉ m.ownNames := by
    rw [hown]
    exact iff_of_true hapart fun _ _ => List.not_mem_nil
  rcases of_mem_members hm with rfl | rfl | rfl | ⟨c, hc, rfl⟩ | rfl | rfl | ⟨k, rfl⟩
  · exact hnone (List.forall_mem_singleton.2 hcases) rfl
  · exact hnone (List.forall_mem_nil _) rfl
  · exact hnone (List.forall_mem_singleton.2 (by decide : ["tag", "data"].Nodup)) rfl
  · exact hnone (UnitMember.namesApart_factory (hparameters c hc)) rfl
  · exact UnitMember.namesApart_dispatch_iff hcases
  · exact UnitMember.namesApart_dispatchWithDefault_iff hcases
  · exact hnone (UnitMember.namesApart_equality k) rfl

open Compilation

/-- The unit of an extracted union has the declarations of its members, separated by blank lines. In
each member names that are known together are different exactly if no case has one of the names that
the emission uses there, and the names of the members are different exactly if no case has one that
the emission gives to a member. -/
theorem extracted_names_apart {s : Settings} {d : Document} {e : Entry}
    (h : s.extract d e = .ok (some u)) :
    u.emit s = .ok (CodeLine.printAll s.indentWidth
        (u.reopenedLines e.enclosing e.decl d.nameSpace)) ∧
      u.memberNodes = [Node.blank].intercalate (u.members.map fun m => (m.declaration u).nodes) ∧
      (∀ m ∈ u.members,
        (m.declaration u).NamesApart ↔ ∀ c ∈ u.cases, c.name ∉ m.ownNames) ∧
      (u.memberNames.Nodup ↔ ∀ c ∈ u.cases, c.name ∉ u.fixedNames) := by
  have hcases := Settings.nodup_names_of_extract h
  have hdescriptor : u.descriptor = .ofDecl e.enclosing e.decl d.nameSpace := by
    obtain ⟨_, _, -, -, rfl⟩ := Settings.extract_eq_some_iff.1 h
    rfl
  refine ⟨emit_of_descriptor hdescriptor s, ?_, fun m hm => namesApart_declaration_iff hcases
    (fun c hc => Settings.nodup_parameter_names_of_extract h hc) hm, nodup_memberNames_iff hcases⟩
  rw [memberNodes, funext (UnitMember.nodes_declaration u)]

theorem extracted_names_apart_nestedUnions :
    ∃ e u, (ofDocuments [nestedUnions]).entryOf? 1 = some e ∧
      Settings.extract {} nestedUnions e = .ok (some u) ∧
      (∀ m ∈ u.members, (m.declaration u).NamesApart) ∧ u.memberNames.Nodup := by
  obtain ⟨e, he⟩ : ∃ e, (ofDocuments [nestedUnions]).entryOf? 1 = some e := ⟨_, rfl⟩
  obtain ⟨u, hu, hfree⟩ : ∃ u, Settings.extract {} nestedUnions e = .ok (some u) ∧
      (∀ m ∈ u.members, ∀ c ∈ u.cases, c.name ∉ m.ownNames) ∧
        ∀ c ∈ u.cases, c.name ∉ u.fixedNames := by
    obtain rfl := Option.some.inj he
    exact ⟨_, rfl, by decide⟩
  obtain ⟨-, -, hmembers, hnames⟩ := extracted_names_apart hu
  exact ⟨e, u, he, hu, fun m hm => (hmembers m hm).2 (hfree.1 m hm), hnames.2 hfree.2⟩

/-- A union with a case that has the name of the variable for its payload. -/
def dataUnion : Document where
  path := "shapes.json"
  types := [.marked "Shape" []
    [{ name := "data", parameters := [⟨"radius", some (.simple "double")⟩] }]]

theorem names_clash_dataUnion :
    ∃ e u, (ofDocuments [dataUnion]).entryOf? 0 = some e ∧
      Settings.extract {} dataUnion e = .ok (some u) ∧
      (∀ c ∈ u.cases, Text.IsIdentifier c.name.toList ∧
        ∀ p ∈ c.parameters, Text.IsIdentifier p.name.toList) ∧
      ∃ m ∈ u.members, ["data", "data"] ∈ (m.declaration u).scopes ∧
        ¬ (m.declaration u).NamesApart := by
  obtain ⟨e, he⟩ : ∃ e, (ofDocuments [dataUnion]).entryOf? 0 = some e := ⟨_, rfl⟩
  obtain ⟨u, hu, hidentifiers, hclash⟩ : ∃ u, Settings.extract {} dataUnion e = .ok (some u) ∧
      (∀ c ∈ u.cases, Text.IsIdentifier c.name.toList ∧
        ∀ p ∈ c.parameters, Text.IsIdentifier p.name.toList) ∧
      ["data", "data"] ∈ ((UnitMember.dispatch u.cases).declaration u).scopes := by
    obtain rfl := Option.some.inj he
    exact ⟨_, rfl, by decide +kernel, by decide⟩
  exact ⟨e, u, he, hu, hidentifiers, .dispatch u.cases, by simp [members], hclash,
    fun hapart => absurd (hapart _ hclash) (by decide)⟩

end UnionType

end CaseUnion
