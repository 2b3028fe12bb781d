import Mathlib.Data.List.Forall2
import CaseUnion.Emission
import CaseUnion.Proofs.Dispatching

/-!
# Emitted members

The members of a unit are read here as code in its own right: an enumeration, factories with their
parameters, methods that switch over the tag, each with its callbacks and its sections. Blank lines
tell one member from the next (`Node.groups_intercalate`). Every list of this code has one item for
each case, in the order of the cases (`MemberCode.Follows`), so the tag of a value is the position
of the entry of its case.
-/

namespace CaseUnion

namespace Node

def isBlank : Node → Bool
  | blank => true
  | _ => false

@[simp] theorem isBlank_line (text : String) : (line text).isBlank = false := rfl

@[simp] theorem isBlank_block (header : String) (body : List Node) :
    (block header body).isBlank = false := rfl

/-- The runs of nodes between blank lines. -/
def groups (nodes : List Node) : List (List Node) := nodes.splitOnP isBlank

theorem groups_intercalate {parts : List (List Node)} (hne : parts ≠ [])
    (hparts : ∀ part ∈ parts, ∀ node ∈ part, node.isBlank = false) :
    groups ([blank].intercalate parts) = parts := by
  induction parts with
  | nil => exact absurd rfl hne
  | cons part rest ih =>
    have hpart := hparts part List.mem_cons_self
    cases rest with
    | nil =>
      rw [List.intercalate_singleton]
      exact List.splitOnP_eq_singleton hpart
    | cons next rest =>
      rw [List.intercalate_cons_cons, groups, List.append_assoc, List.singleton_append,
        List.splitOnP_append_cons_of_forall_mem hpart _ rfl]
      congr 1
      exact ih nofun fun other hother => hparts other (List.mem_cons_of_mem _ hother)

end Node

/-- The integer types for tags, each with its largest value. -/
def tagTypes : List (String × Nat) :=
  [("byte", 0xff), ("ushort", 0xffff), ("uint", 0xffffffff)]

/-- The smallest of the types that hold the last of so many tags. -/
def IsTagType (count : Nat) (keyword : String) : Prop :=
  ∃ largest, (keyword, largest) ∈ tagTypes ∧ (count ≤ 0x100000000 → count - 1 ≤ largest) ∧
    ∀ other ∈ tagTypes, count - 1 ≤ other.2 → largest ≤ other.2

theorem isTagType_keyword_forCount (count : Nat) :
    IsTagType count (TagWidth.forCount count).keyword := by
  have hbounds : ∀ other ∈ tagTypes,
      other.2 = 0xff ∨ other.2 = 0xffff ∨ other.2 = 0xffffffff := by decide
  unfold TagWidth.forCount
  split
  · refine ⟨0xff, by decide, by omega, fun other hother _ => ?_⟩
    have := hbounds other hother
    omega
  · split
    · refine ⟨0xffff, by decide, by omega, fun other hother _ => ?_⟩
      have := hbounds other hother
      omega
    · refine ⟨0xffffffff, by decide, by omega, fun other hother _ => ?_⟩
      have := hbounds other hother
      omega

/-! ### Code of members -/

/-- A parameter of a dispatch. -/
structure Callback where
  argumentTypes : List String
  name : String
  optional : Bool
  deriving DecidableEq, Repr

/-- The type of the callback: the types of its arguments, then the type of the result. -/
def Callback.type (k : Callback) : String :=
  "System.Func<" ++ ", ".intercalate (k.argumentTypes ++ ["TResult"]) ++ ">"

def Callback.text (k : Callback) : String :=
  if k.optional then s!"{k.type}? {k.name} = null" else s!"{k.type} {k.name}"

/-- A section of a switch over the tag: the entry it is for and its statements. -/
structure TagSection where
  entry : String
  braced : Bool
  statements : List String
  deriving DecidableEq, Repr

def TagSection.nodes (s : TagSection) : List Node :=
  [.line s!"case Tag.{s.entry}:",
    if s.braced then .scope (s.statements.map .line) else .indented (s.statements.map .line)]

/-- A method that is a switch over the tag. -/
structure TagMethod where
  name : String
  callbacks : List Callback
  sections : List TagSection
  /-- What happens for any other tag. -/
  fallback : String
  deriving DecidableEq, Repr

def TagMethod.node (m : TagMethod) : Node :=
  .block (s!"public TResult {m.name}<TResult>(" ++ ", ".intercalate (m.callbacks.map (·.text)) ++ ")")
    [.block "switch (_tag)"
      (m.sections.flatMap (·.nodes) ++ [.line "default:", .indented [.line m.fallback]])]

/-- A factory makes an instance with the tag of an entry. -/
inductive Factory where
  /-- One instance that is always the same. -/
  | shared (name entry : String)
  | method (name : String) (parameters : List String) (entry payload : String)
  deriving DecidableEq, Repr

def Factory.node (self : String) : Factory → Node
  | shared name entry => .line s!"public static readonly {self} {name} = new {self}(Tag.{entry});"
  | method name parameters entry payload =>
    .block (s!"public static {self} {name}(" ++ ", ".intercalate parameters ++ ")")
      [.line s!"return new {self}(Tag.{entry}, {payload});"]

/-- A member that compares or hashes, in one statement. -/
structure Comparison where
  header : String
  statement : String
  deriving DecidableEq, Repr

def Comparison.node (k : Comparison) : Node := .block k.header [.line k.statement]

/-- The members of a unit. -/
structure MemberCode where
  tagType : String
  entries : List String
  factories : List Factory
  dispatch : TagMethod
  withDefault : Option TagMethod
  equality : List Comparison
  deriving Repr

namespace MemberCode

/-- The nodes of the members, one group each, for a type with a name and a reference to itself. -/
def groups (m : MemberCode) (name self : String) : List (List Node) :=
  [[.block s!"private enum Tag : {m.tagType}" (m.entries.map fun e => .line s!"{e},")],
    [.line "private readonly Tag _tag;", .line "private readonly object? _data;"],
    [.block s!"private {name}(Tag tag, object? data = default)"
      [.line "_tag = tag;", .line "_data = data;"]]] ++
    m.factories.map (fun f => [f.node self]) ++ [[m.dispatch.node]] ++
    m.withDefault.toList.map (fun d => [d.node]) ++
    m.equality.map fun k => [k.node]

theorem isBlank_of_mem_groups {m : MemberCode} {name self : String} {group : List Node}
    (h : group ∈ m.groups name self) : ∀ node ∈ group, node.isBlank = false := by
  have hfactory (f : Factory) : (f.node self).isBlank = false := by cases f <;> rfl
  simp only [groups, List.mem_append, List.mem_cons, List.mem_map, List.not_mem_nil, or_false] at h
  rcases h with ((((rfl | rfl | rfl) | ⟨f, _, rfl⟩) | rfl) | ⟨d, _, rfl⟩) | ⟨k, _, rfl⟩
  · simp
  · simp
  · simp
  · simp [hfactory]
  · simp [TagMethod.node]
  · simp [TagMethod.node]
  · simp [Comparison.node]

end MemberCode

/-- The statement that leaves a section if a callback is missing. -/
def missingTest (name : String) : String := s!"if ({name} == null) goto default;"

namespace UnionCase

/-- The factory has the name of the case, gives its instances the tag of the case, and takes the
parameters of the case, if it has any. -/
def MadeBy (c : UnionCase) (f : Factory) : Prop :=
  if c.parameters = [] then f = .shared c.name c.name
  else ∃ payload, f =
    .method c.name (c.parameters.map fun p => p.type.qualified ++ " " ++ p.name) c.name payload

/-- The statements end by calling the callback of the case, with as many arguments as the case has
parameters. Before that the payload is taken out, if there is one. -/
def Invoked (c : UnionCase) (statements : List String) : Prop :=
  ∃ arguments : List String, arguments.length = c.arity ∧
    statements = (if c.parameters = [] then [] else [s!"var data = ({c.payloadType})_data!;"]) ++
      [s!"return {c.name}(" ++ ", ".intercalate arguments ++ ");"]

end UnionCase

/-- The headers of the five comparisons. An operand of a class may be missing. -/
def UnionType.comparisonHeaders (u : UnionType) : List String :=
  let self := u.descriptor.selfReference
  if u.isClass then
    [s!"public bool Equals({self}? other)", "public override bool Equals(object? obj)",
      "public override int GetHashCode()",
      s!"public static bool operator ==({self}? left, {self}? right)",
      s!"public static bool operator !=({self}? left, {self}? right)"]
  else
    [s!"public bool Equals({self} other)", "public override bool Equals(object? obj)",
      "public override int GetHashCode()",
      s!"public static bool operator ==({self} left, {self} right)",
      s!"public static bool operator !=({self} left, {self} right)"]

/-- The code follows the cases of a union. -/
structure MemberCode.Follows (m : MemberCode) (u : UnionType) : Prop where
  entries : m.entries = u.cases.map (·.name)
  tagType : IsTagType u.cases.length m.tagType
  factories : List.Forall₂ UnionCase.MadeBy u.cases m.factories
  dispatchName : m.dispatch.name = "Match"
  callbacks : m.dispatch.callbacks = u.cases.map fun c => ⟨c.parameterTypes, c.name, false⟩
  labels : m.dispatch.sections.map (·.entry) = m.entries
  sections : List.Forall₂ (fun c s => c.Invoked s.statements) u.cases m.dispatch.sections
  isSome_withDefault : m.withDefault.isSome ↔ 1 < u.cases.length
  withDefault : ∀ d ∈ m.withDefault, d.name = "MatchWithDefault" ∧ d.fallback = "return _();" ∧
    d.callbacks = ⟨[], "_", false⟩ :: m.dispatch.callbacks.map ({ · with optional := true }) ∧
    d.sections.map (·.entry) = m.entries ∧
    List.Forall₂ (fun c s => ∃ rest, s.statements = missingTest c.name :: rest ∧ c.Invoked rest ∧
      ∀ name, missingTest name ∈ s.statements ↔ name = c.name) u.cases d.sections
  equality : m.equality.map (·.header) = u.comparisonHeaders

theorem missingTest_injective {a b : String} (h : missingTest a = missingTest b) : a = b := by
  simpa [missingTest, ToString.toString] using h

namespace UnionCase

def callback (c : UnionCase) (optional : Bool) : Callback := ⟨c.parameterTypes, c.name, optional⟩

def factory (c : UnionCase) : Factory :=
  if c.isNullary then .shared c.name c.name
  else .method c.name (c.parameters.map fun p => p.type.qualified ++ " " ++ p.name) c.name
    c.payloadValue

def callStatements (c : UnionCase) : List String :=
  (if c.isNullary then [] else [s!"var data = ({c.payloadType})_data!;"]) ++
    [s!"return {c.name}(" ++ ", ".intercalate c.unpacked ++ ");"]

theorem missingTest_notMem_callStatements (c : UnionCase) (name : String) :
    missingTest name ∉ c.callStatements := by
  -- a test starts with another letter than the statements of a call
  have htest : (missingTest name).toList.head? = some 'i' := by
    simp [missingTest, ToString.toString]
  have hcall : ∀ s ∈ c.callStatements, s.toList.head? ≠ some 'i' := by
    rw [callStatements]
    split <;> simp [ToString.toString]
  exact fun h => hcall _ h htest

theorem madeBy_factory (c : UnionCase) : c.MadeBy c.factory := by
  rw [MadeBy, factory, isNullary]
  cases c.parameters with
  | nil => rfl
  | cons p rest => exact ⟨_, rfl⟩

theorem invoked_callStatements (c : UnionCase) : c.Invoked c.callStatements := by
  refine ⟨c.unpacked, by simp [unpacked], ?_⟩
  simp [callStatements, isNullary]

theorem callLines_eq (c : UnionCase) : c.callLines = c.callStatements.map .line := by
  rw [callLines, callStatements]
  split
  · next h =>
    have hunpacked : c.unpacked = [] := by
      simpa [unpacked, arity, isNullary] using h
    have hparens : "(" ++ ");" = "();" := rfl
    simp [hunpacked, ToString.toString, String.append_assoc, hparens]
  · rfl

theorem node_factory (c : UnionCase) (u : UnionType) :
    [c.factory.node u.descriptor.selfReference] = UnitMember.nodes u (.factory c) := by
  rw [factory, UnitMember.nodes]
  split
  · rfl
  · simp [Factory.node, signature, ToString.toString]

end UnionCase

namespace UnionType

def dispatchCode (u : UnionType) : TagMethod where
  name := "Match"
  callbacks := u.cases.map (·.callback false)
  sections := u.cases.map fun c => ⟨c.name, !c.isNullary, c.callStatements⟩
  fallback := "throw new System.ArgumentOutOfRangeException(nameof(_tag), _tag, null);"

def dispatchWithDefaultCode (u : UnionType) : TagMethod where
  name := "MatchWithDefault"
  callbacks := ⟨[], "_", false⟩ :: u.cases.map (·.callback true)
  sections := u.cases.map fun c => ⟨c.name, true, missingTest c.name :: c.callStatements⟩
  fallback := "return _();"

def comparisons (u : UnionType) : List Comparison :=
  let self := u.descriptor.selfReference
  let same := "_tag == other._tag && object.Equals(_data, other._data)"
  let compared := s!"return obj is {self} other && Equals(other);"
  let hashed := "return System.HashCode.Combine(_tag, _data);"
  let statements :=
    if u.isClass then
      [s!"return other is not null && {same};", compared, hashed,
        "return left is null ? right is null : left.Equals(right);", "return !(left == right);"]
    else
      [s!"return {same};", compared, hashed, "return left.Equals(right);",
        "return !left.Equals(right);"]
  u.comparisonHeaders.zipWith .mk statements

def memberCode (u : UnionType) : MemberCode where
  tagType := u.tagWidth.keyword
  entries := u.cases.map (·.name)
  factories := u.cases.map (·.factory)
  dispatch := u.dispatchCode
  withDefault := if u.hasDefaultDispatch then some u.dispatchWithDefaultCode else none
  equality := u.comparisons

theorem node_dispatchCode (u : UnionType) :
    [u.dispatchCode.node] = UnitMember.nodes u (.dispatch u.cases) := by
  have hcallbacks : u.dispatchCode.callbacks.map (·.text) = UnitMember.callbacks u.cases := by
    simp only [dispatchCode, UnitMember.callbacks, List.map_map]
    rfl
  have hsections : u.dispatchCode.sections.flatMap (·.nodes) =
      u.cases.flatMap (·.dispatchSection) := by
    simp only [dispatchCode, List.flatMap_map]
    refine List.flatMap_congr fun c _ => ?_
    rw [UnionCase.dispatchSection, c.callLines_eq]
    cases c.isNullary <;> rfl
  rw [TagMethod.node, hcallbacks, hsections]
  rfl

theorem node_dispatchWithDefaultCode (u : UnionType) :
    [u.dispatchWithDefaultCode.node] = UnitMember.nodes u (.dispatchWithDefault u.cases) := by
  have hcallbacks : u.dispatchWithDefaultCode.callbacks.map (·.text) =
      UnitMember.optionalCallbacks u.cases := by
    simp only [dispatchWithDefaultCode, UnitMember.optionalCallbacks, List.map_cons, List.map_map]
    rfl
  have hsections : u.dispatchWithDefaultCode.sections.flatMap (·.nodes) =
      u.cases.flatMap (·.guardedSection) := by
    simp only [dispatchWithDefaultCode, List.flatMap_map]
    refine List.flatMap_congr fun c _ => ?_
    rw [UnionCase.guardedSection, c.callLines_eq]
    rfl
  rw [TagMethod.node, hcallbacks, hsections]
  rfl

theorem nodes_comparisons (u : UnionType) :
    u.comparisons.map (fun k => [k.node]) =
      [.equality .typed, .equality .untyped, .equality .hashCode, .equality .equal,
        .equality .notEqual].map (UnitMember.nodes u) := by
  simp only [List.map_cons, List.map_nil, UnitMember.nodes, comparisons, comparisonHeaders,
    UnitMember.equalityNode]
  cases u.isClass <;> rfl

theorem groups_memberCode (u : UnionType) :
    u.memberCode.groups u.descriptor.name u.descriptor.selfReference =
      u.members.map (UnitMember.nodes u) := by
  have hfactories : u.memberCode.factories.map (fun f => [f.node u.descriptor.selfReference]) =
      (u.cases.map UnitMember.factory).map (UnitMember.nodes u) := by
    simp only [memberCode, List.map_map]
    exact List.map_congr_left fun c _ => c.node_factory u
  have htags : u.memberCode.entries.map (fun e => Node.line s!"{e},") =
      (u.cases.map (·.name)).map fun name => Node.line s!"{name}," := rfl
  have hdefault : u.memberCode.withDefault.toList.map (fun d => [d.node]) =
      (if u.hasDefaultDispatch then [UnitMember.dispatchWithDefault u.cases] else []).map
        (UnitMember.nodes u) := by
    rw [memberCode]
    cases u.hasDefaultDispatch with
    | true => exact congrArg ([·]) u.node_dispatchWithDefaultCode
    | false => rfl
  have hdispatch : [u.memberCode.dispatch.node] = UnitMember.nodes u (.dispatch u.cases) :=
    u.node_dispatchCode
  have hequality : u.memberCode.equality.map (fun k => [k.node]) = _ := u.nodes_comparisons
  rw [MemberCode.groups, members, hfactories, hdispatch, hdefault, hequality]
  simp only [List.map_append]
  rfl

theorem groups_memberNodes_eq (u : UnionType) :
    Node.groups u.memberNodes =
      u.memberCode.groups u.descriptor.name u.descriptor.selfReference := by
  rw [memberNodes, ← groups_memberCode]
  exact Node.groups_intercalate (by simp [MemberCode.groups]) fun _ =>
    MemberCode.isBlank_of_mem_groups

theorem follows_memberCode (u : UnionType) : u.memberCode.Follows u := by
  constructor
  case entries => rfl
  case tagType => exact isTagType_keyword_forCount _
  case factories =>
    rw [memberCode, List.forall₂_map_right_iff]
    exact List.forall₂_same.2 fun c _ => c.madeBy_factory
  case dispatchName => rfl
  case callbacks => rfl
  case labels => simp [memberCode, dispatchCode]
  case sections =>
    simp only [memberCode, dispatchCode, List.forall₂_map_right_iff]
    exact List.forall₂_same.2 fun c _ => c.invoked_callStatements
  case isSome_withDefault => simp [memberCode, hasDefaultDispatch]
  case withDefault =>
    intro d hd
    have heq : d = u.dispatchWithDefaultCode := by
      simp only [memberCode, Option.mem_def] at hd
      split at hd
      · exact (Option.some.inj hd).symm
      · cases hd
    subst heq
    refine ⟨rfl, rfl, ?_, ?_, ?_⟩
    · simp [dispatchWithDefaultCode, memberCode, dispatchCode, UnionCase.callback]
    · simp [dispatchWithDefaultCode, memberCode]
    · simp only [dispatchWithDefaultCode, List.forall₂_map_right_iff]
      refine List.forall₂_same.2 fun c _ => ⟨_, rfl, c.invoked_callStatements, fun name => ?_⟩
      simp only [List.mem_cons, c.missingTest_notMem_callStatements, or_false]
      exact ⟨missingTest_injective, congrArg missingTest⟩
  case equality =>
    simp only [memberCode, comparisons, comparisonHeaders]
    cases u.isClass <;> rfl

/-- Putting a node into declarations gives a block with the header of each, outermost first. -/
theorem nest_eq_ok_iff {inner node : Node} {parents : List Descriptor} :
    nest inner parents = .ok node ↔
      ∃ headers, List.Forall₂ (fun d header => d.declarationHeader = .ok header) parents headers ∧
        node = headers.foldr (fun header body => .block header [body]) inner := by
  induction parents generalizing node with
  | nil => simp [nest, eq_comm]
  | cons parent rest ih =>
    rw [nest]
    constructor
    · intro h
      cases hbody : nest inner rest with
      | error f => simp [hbody, bind, Except.bind] at h
      | ok body =>
        cases hheader : parent.declarationHeader with
        | error f => simp [hbody, hheader, bind, Except.bind] at h
        | ok header =>
          simp only [hbody, hheader, bind, Except.bind, pure, Except.pure, Except.ok.injEq] at h
          obtain ⟨headers, hheaders, rfl⟩ := ih.1 hbody
          exact ⟨header :: headers, .cons hheader hheaders, h.symm⟩
    · rintro ⟨_, hheaders, rfl⟩
      cases hheaders with
      | cons hheader hrest =>
        rw [ih.2 ⟨_, hrest, rfl⟩, hheader]
        rfl

/-- The members are the body of the declaration of the union in its unit. -/
theorem emit_eq_ok {u : UnionType} {s : Settings} {text : String} (h : u.emit s = .ok text) :
    ∃ headers header, List.Forall₂ (fun d header => d.declarationHeader = .ok header)
        u.descriptor.parents headers ∧
      text = Node.print (preamble u.descriptor.nameSpace ++
        [headers.foldr (fun header body => .block header [body]) (.block header u.memberNodes)])
        s.indentWidth := by
  simp only [emit, unitNodes, bind, Except.bind, pure, Except.pure] at h
  cases hheader : u.descriptor.declarationHeader with
  | error f => simp [hheader] at h
  | ok header =>
    simp only [hheader] at h
    split at h
    · cases h
    · next nodes hnodes =>
      split at hnodes
      · cases hnodes
      · next node hnode =>
        cases hnodes
        cases h
        obtain ⟨headers, hheaders, rfl⟩ := nest_eq_ok_iff.1 hnode
        exact ⟨headers, _, hheaders, rfl⟩

theorem idxOf?_of_construct {u : UnionType} {c : String} {args : List Value} {v : UnionValue}
    (h : (Shape.ofUnion u).construct c args = .ok v) :
    (u.cases.map (·.name)).idxOf? c = some v.tag := by
  have hposition := Shape.position?_of_construct h
  rw [Shape.position?, Shape.ofUnion, List.findIdx?_map] at hposition
  rw [List.idxOf?, List.findIdx?_map]
  exact hposition

end UnionType
end CaseUnion
